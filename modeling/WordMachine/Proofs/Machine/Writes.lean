import WordMachine.Proofs.Console.Request
import WordMachine.Proofs.Machine.Loads
import WordMachine.Proofs.Machine.Rules

/-!
What a step may write. Each outcome of an instruction changes at most one cell, one register
or the top of the stack, and sends the program counter to a place that the instruction says
(`State.Outcome.memory` and the lemmas after it). So does `in`, on top of what the request
for input has loaded and set (`Machine.step_writes`).
-/
namespace WordMachine

namespace State

variable {s t : State} {i : Instruction} {status : Status}

/-! ### Outcomes -/

/-- Only `wmem` changes a cell: the one that its first operand gives gets the value of its
    second. -/
theorem Outcome.memory (outcome : s.Outcome i (t, status)) :
    t.memory = s.memory ∨ ∃ operand source address value, i = .wmem operand source ∧
      s.registers.resolve? operand = some address ∧ s.registers.resolve? source = some value ∧
      s.memory.write? address.toNat value = some t.memory := by
  cases outcome with
  | stores resolved found put => exact .inr ⟨_, _, _, _, rfl, resolved, found, put⟩
  | _ => exact .inl rfl

/-- Only the register changes that the destination names. -/
theorem Outcome.registers (outcome : s.Outcome i (t, status)) {k : Nat} (inside : k < 8)
    (changed : t.registers[k] ≠ s.registers[k]) :
    ∃ destination, i.assigned? = some destination ∧ destination.toNat = 32768 + k := by
  cases outcome with
  | @assigns _ destination _ index names register =>
    refine ⟨destination, ?_, by rw [register, Registers.eq_of_getElem_set_ne index.isLt changed]⟩
    cases i with
    | set | binary | not | rmem => exact names
    | _ => cases names
  | @pops destination _ _ index _ register =>
    exact ⟨destination, rfl, by rw [register, Registers.eq_of_getElem_set_ne index.isLt changed]⟩
  | _ => exact absurd rfl changed

/-- The stack changes by one word, which `push` or `call` puts on it, or `pop` or `ret` takes
    off. -/
theorem Outcome.stack (outcome : s.Outcome i (t, status)) :
    t.stack = s.stack ∨
      ((∃ operand, i = .push operand ∨ i = .call operand) ∧ ∃ value, t.stack = value :: s.stack) ∨
      ((∃ destination, i = .pop destination) ∨ i = .ret) ∧ ∃ top, s.stack = top :: t.stack := by
  cases outcome with
  | pushes => exact .inr (.inl ⟨⟨_, .inl rfl⟩, _, rfl⟩)
  | calls => exact .inr (.inl ⟨⟨_, .inr rfl⟩, _, rfl⟩)
  | pops held | drops held => exact .inr (.inr ⟨.inl ⟨_, rfl⟩, _, held⟩)
  | returns held => exact .inr (.inr ⟨.inr rfl, _, held⟩)
  | _ => exact .inl rfl

/-- Whatever ends the run leaves the program counter. -/
theorem Outcome.pc_of_final (outcome : s.Outcome i (t, status)) (final : status ≠ .running) : t.pc = s.pc := by
  cases outcome with
  | halts | ends | drops | faults => rfl
  | _ => exact absurd rfl final

theorem target?_of_jump {operand : Word} (jump : s.Jump i operand) : s.target? i = some operand ∧ i ≠ .ret := by
  cases jump with
  | always => exact ⟨rfl, nofun⟩
  | ifTrue resolved holds => exact ⟨by simp [target?, resolved, holds], nofun⟩
  | ifFalse resolved => exact ⟨by simp [target?, resolved], nofun⟩

theorem target?_of_idle (idle : s.Idle i) : s.target? i = none ∧ i ≠ .ret := by
  cases idle with
  | noop | out => exact ⟨rfl, nofun⟩
  | ifTrue resolved => exact ⟨by simp [target?, resolved], nofun⟩
  | ifFalse resolved holds => exact ⟨by simp [target?, resolved, holds], nofun⟩

theorem target?_of_assigned {destination : Word} (names : i.destination? = some destination) :
    s.target? i = none ∧ i ≠ .ret := by
  cases i with
  | set | binary | not | rmem => exact ⟨rfl, nofun⟩
  | _ => cases names

/-- Where the program goes on after an instruction: at the value of its target, at the top of
    the stack after `ret`, and otherwise behind the instruction, counted from another state. -/
structure GoesOn (s base : State) (i : Instruction) (t : State) : Prop where
  target : ∀ operand, s.target? i = some operand → s.registers.resolve? operand = some t.pc
  ret : i = .ret → s.stack = t.pc :: t.stack
  behind : s.target? i = none → i ≠ .ret → t.pc.toNat = base.pc.toNat + 1 + i.operation.arity

theorem GoesOn.of_behind {base : State} (passes : s.target? i = none ∧ i ≠ .ret)
    (next : t.pc.toNat = base.pc.toNat + 1 + i.operation.arity) : s.GoesOn base i t where
  target := by
    intro operand jumps
    rw [passes.1] at jumps
    cases jumps
  ret := fun is => absurd is passes.2
  behind := fun _ _ => next

theorem GoesOn.of_target {base : State} {operand : Word} (jumps : s.target? i = some operand ∧ i ≠ .ret)
    (resolved : s.registers.resolve? operand = some t.pc) : s.GoesOn base i t where
  target := by
    intro other same
    rw [jumps.1] at same
    cases same
    exact resolved
  ret := fun is => absurd is jumps.2
  behind := by
    intro passes
    rw [jumps.1] at passes
    cases passes

theorem Outcome.goesOn (outcome : s.Outcome i (t, .running)) (fetched : s.fetch = .ok i) : s.GoesOn s i t := by
  have behind : (s.after i.width).toNat = s.pc.toNat + 1 + i.operation.arity := by
    rw [toNat_after (fetch_eq_ok fetched).2, Instruction.width, Nat.add_assoc]
  cases outcome with
  | assigns names => exact .of_behind (target?_of_assigned names) behind
  | pops | stores | pushes => exact .of_behind ⟨rfl, by simp⟩ behind
  | passes idle => exact .of_behind (target?_of_idle idle) behind
  | calls resolved => exact .of_target ⟨rfl, by simp⟩ resolved
  | jumps jump resolved => exact .of_target (target?_of_jump jump) resolved
  | returns held => exact ⟨by simp [target?], fun _ => held, fun _ is => absurd rfl is⟩

/-! ### Receptions -/

variable {word : Word}

theorem Reception.memory (reception : s.Reception word (t, status)) :
    t.memory = s.memory ∨ ∃ address, s.word? 1 = some address ∧ s.memory.write? address.toNat word = some t.memory := by
  cases reception with
  | cell held put => exact .inr ⟨_, held, put⟩
  | _ => exact .inl rfl

theorem Reception.registers (reception : s.Reception word (t, status)) {k : Nat} (inside : k < 8)
    (changed : t.registers[k] ≠ s.registers[k]) :
    ∃ destination, s.word? 1 = some destination ∧ destination.toNat = 32768 + k := by
  cases reception with
  | @register destination index held names =>
    exact ⟨destination, held, by rw [names, Registers.eq_of_getElem_set_ne index.isLt changed]⟩
  | _ => exact absurd rfl changed

theorem Reception.pc_of_final (reception : s.Reception word (t, status)) (final : status ≠ .running) : t.pc = s.pc := by
  cases reception with
  | refused | outside => rfl
  | _ => exact absurd rfl final

theorem Reception.goesOn {base : State} {operand : Word} (reception : s.Reception word (t, .running)) :
    base.GoesOn s (.input operand) t := by
  have inside : s.pc.toNat + 1 < Memory.size := by
    cases reception with
    | register held _ | cell held _ => exact inside_of_word? held
  refine .of_behind ⟨rfl, nofun⟩ ?_
  rw [reception.pc, toNat_after inside]
  rfl

theorem Touched.word? (touched : s.Touched t) (k : Nat) : t.word? k = s.word? k := by
  rw [State.word?, State.word?, touched.pc, touched.memory]

end State

/-! ### Steps -/

namespace Machine

variable {m : Machine} {status : Status}

/-- What a step may write, to each part of the machine. Unless `in` loads a state, the state
    before the step is what is written to; otherwise it is the one that was loaded last. -/
structure Writes (m : Machine) (status : Status) : Prop where
  loads : m.loads ≠ [] → m.state.atInput = true
  /-- One cell is written by `wmem`, or by `in` whose operand is a literal. -/
  memory : m.step.1.state.memory = m.loaded.memory ∨
    (∃ operand source address value, m.state.fetch = .ok (.wmem operand source) ∧
      m.state.registers.resolve? operand = some address ∧ m.state.registers.resolve? source = some value ∧
      m.state.memory.write? address.toNat value = some m.step.1.state.memory) ∨
    ∃ address word, m.state.atInput = true ∧ (m.console.nextInput m.state).1 = .word word ∧
      m.loaded.word? 1 = some address ∧ m.loaded.memory.write? address.toNat word = some m.step.1.state.memory
  /-- One register is written if it is the destination; and register 7 by `reg7`. -/
  registers : ∀ k (_ : k < 8), m.step.1.state.registers[k] ≠ m.loaded.registers[k] →
    (∃ i destination, m.state.fetch = .ok i ∧ i.assigned? = some destination ∧ destination.toNat = 32768 + k) ∨
    m.state.atInput = true ∧ ((∃ destination, m.loaded.word? 1 = some destination ∧ destination.toNat = 32768 + k) ∨
      k = 7 ∧ ∃ lines, m.console.Request m.state lines m.loads (m.console.nextInput m.state) ∧
        ∃ line ∈ lines, ∃ value, Command.parse (Console.textOfLine line) = .ok (.setRegister7 value))
  /-- One word is put on the stack, or taken off. -/
  stack : m.step.1.state.stack = m.loaded.stack ∨
    (∃ operand, m.state.fetch = .ok (.push operand) ∨ m.state.fetch = .ok (.call operand)) ∧
      (∃ value, m.step.1.state.stack = value :: m.state.stack) ∨
    ((∃ destination, m.state.fetch = .ok (.pop destination)) ∨ m.state.fetch = .ok .ret) ∧
      ∃ top, m.state.stack = top :: m.step.1.state.stack
  /-- What is to be read, what is pending and the slot stay as they are. -/
  input : m.state.atInput = false → m.step.1.console = { m.console with sink := m.step.1.console.sink }
  output : m.console.said <+: m.step.1.console.said
  silence : m.state.atInput = false → (∀ source, m.state.fetch ≠ .ok (.out source)) →
    m.step.1.console.sink = m.console.sink
  stops : status ≠ .running → m.step.1.state.pc = m.loaded.pc
  goesOn : status = .running → ∃ i, m.state.fetch = .ok i ∧ m.state.GoesOn m.loaded i m.step.1.state

/-- Whatever the devices do, an instruction other than `in` at most adds to the output, and
    only if it is `out`. -/
theorem console_of_busy (runs : m.status = .running) (busy : m.state.atInput = false) (ended : m.step.2 = .ok status) :
    m.step.1.console = { m.console with sink := m.step.1.console.sink } ∧ m.console.said <+: m.step.1.console.said ∧
      ((∀ source, m.state.fetch ≠ .ok (.out source)) → m.step.1.console.sink = m.console.sink) := by
  obtain ⟨done, -⟩ := execute_of_result runs ended
  rcases console_of_execute busy done with ⟨same, -⟩ | ⟨source, word, fetched, -, ⟨written, -, -⟩ | ⟨_, -, -, failed⟩⟩
  · rw [same]
    exact ⟨rfl, List.prefix_rfl, fun _ => rfl⟩
  · have grown := m.console.said_prefix_write (Utf8.encode [Console.charOfWord word])
    obtain ⟨full, failure, same⟩ := m.console.exists_write (Utf8.encode [Console.charOfWord word])
    rw [Console.emit, same] at written
    rw [same] at grown
    rw [← (Prod.mk.inj written).1]
    exact ⟨rfl, grown, fun silent => absurd fetched (silent source)⟩
  · cases failed

theorem writes_of_busy (runs : m.status = .running) (busy : m.state.atInput = false) (ended : m.step.2 = .ok status) :
    m.Writes status := by
  obtain ⟨input, output, silence⟩ := console_of_busy runs busy ended
  have idle := loads_of_busy busy
  have base := loaded_of_free idle
  cases fetched : m.state.fetch with
  | error fault =>
    obtain rfl : .faulted fault = status := Except.ok.inj ((result_of_unfetched runs fetched).symm.trans ended)
    have same : m.step.1.state = m.loaded := by
      rw [step_of_unfetched runs fetched, base]
      rfl
    exact {
      loads := absurd idle
      memory := .inl (by rw [same])
      registers := fun k _ changed => absurd (by rw [same]) changed
      stack := .inl (by rw [same])
      input := fun _ => input
      output := output
      silence := fun _ => silence
      stops := fun _ => by rw [same]
      goesOn := nofun }
  | ok i =>
    have outcome := outcome_of_result runs fetched busy ended
    refine {
      loads := absurd idle
      memory := ?_
      registers := ?_
      stack := ?_
      input := fun _ => input
      output := output
      silence := fun _ => silence
      stops := ?_
      goesOn := ?_ }
    · rw [base]
      rcases outcome.memory with same | ⟨operand, source, address, value, rfl, stores⟩
      · exact .inl same
      · exact .inr (.inl ⟨operand, source, address, value, fetched, stores⟩)
    · intro k inside changed
      rw [base] at changed
      obtain ⟨destination, names⟩ := outcome.registers inside changed
      exact .inl ⟨i, destination, fetched, names⟩
    · rw [base, fetched]
      rcases outcome.stack with same | ⟨⟨operand, puts⟩, grown⟩ | ⟨takes, shrunk⟩
      · exact .inl same
      · exact .inr (.inl ⟨⟨operand, by simpa using puts⟩, grown⟩)
      · exact .inr (.inr ⟨by simpa using takes, shrunk⟩)
    · intro final
      rw [base, outcome.pc_of_final final]
    · rintro rfl
      rw [base]
      exact ⟨i, fetched, outcome.goesOn fetched⟩

theorem writes_of_waiting (runs : m.status = .running) (waits : m.state.atInput = true)
    (ended : m.step.2 = .ok status) : m.Writes status := by
  obtain ⟨done, -⟩ := execute_of_result runs ended
  have touched := touched_of_waiting runs waits
  obtain ⟨lines, request⟩ := m.console.request_nextInput m.state
  rw [← loads_of_waiting runs waits] at request
  have deaf : ¬ m.state.atInput = false := by
    rw [waits]
    nofun
  -- What the request leaves differs from what it loaded in register 7 only.
  have set {k : Nat} (inside : k < 8) (changed : (m.console.nextInput m.state).2.2.registers[k] ≠ m.loaded.registers[k]) :
      k = 7 ∧ ∃ lines, m.console.Request m.state lines m.loads (m.console.nextInput m.state) ∧
        ∃ line ∈ lines, ∃ value, Command.parse (Console.textOfLine line) = .ok (.setRegister7 value) := by
    obtain ⟨is7, sets⟩ := request.registers inside changed
    exact ⟨is7, lines, request, sets⟩
  have output := request.said
  rcases reception_of_execute waits done with ⟨rfl, asked⟩ | ⟨word, u, asked, reception⟩
  · rw [asked] at touched output set
    exact {
      loads := fun _ => waits
      memory := .inl touched.memory
      registers := fun k inside changed => .inr ⟨waits, .inr (by rw [asked]; exact set inside changed)⟩
      stack := .inl touched.stack
      input := fun busy => absurd busy deaf
      output := output
      silence := fun busy => absurd busy deaf
      stops := fun _ => touched.pc
      goesOn := nofun }
  · rw [asked] at touched output set
    refine {
      loads := fun _ => waits
      memory := ?_
      registers := ?_
      stack := .inl (by rw [reception.stack, touched.stack])
      input := fun busy => absurd busy deaf
      output := output
      silence := fun busy => absurd busy deaf
      stops := fun final => by rw [reception.pc_of_final final, touched.pc]
      goesOn := ?_ }
    · rw [← touched.memory, ← touched.word? 1]
      rcases reception.memory with same | ⟨address, held, put⟩
      · exact .inl same
      · exact .inr (.inr ⟨address, word, waits, by rw [asked], held, put⟩)
    · intro k inside changed
      refine .inr ⟨waits, ?_⟩
      by_cases same : u.registers[k] = m.loaded.registers[k]
      · rw [← same] at changed
        rw [← touched.word? 1]
        exact .inl (reception.registers inside changed)
      · rw [asked]
        exact .inr (set inside same)
    · rintro rfl
      obtain ⟨destination, fetched⟩ := State.atInput_iff.mp waits
      have next : m.state.GoesOn u (.input destination) m.step.1.state := reception.goesOn
      exact ⟨_, fetched, next.target, next.ret, fun passes other => touched.pc ▸ next.behind passes other⟩

/-- What a step may write: a cell only by `wmem` or `in`; a register only if it is the
    destination; the stack only by `push`, `call`, `pop` and `ret`; the input and the slot
    only by `in`; the output only by `out` and `in`. A step that ends the run leaves the
    program counter. All this holds of what `in` loads if it loads, but for the last register,
    which `reg7` may set. -/
theorem step_writes (runs : m.status = .running) (ended : m.step.2 = .ok status) : m.Writes status := by
  cases waits : m.state.atInput with
  | false => exact writes_of_busy runs waits ended
  | true => exact writes_of_waiting runs waits ended

/-- A command and a line of input for an `in` whose operand is a literal. -/
theorem step_writes_register :
    let text : List UInt8 := Console.bytesOfText "x\n"
    let m : Machine :=
      new (.start (.padded [20, 100])) ⟨.ofBytes (reg7Line ++ text), .new none, [], "save.json", ">>> ", .empty⟩ none
    m.status = .running ∧ m.step.2 = .ok .running ∧ m.Writes .running ∧
      m.step.1.state.memory.read? 100 = some 120 ∧ m.step.1.state.register? 7 = some 5 ∧ m.step.1.state.pc = 2 := by
  intro text m
  have held : ∀ k (below : k < 2), m.state.memory.read? k = some ([20, 100] : List Word)[k] := by
    intro k below
    exact Memory.read?_padded_getElem (by decide) below
  have waits : m.state.atInput = true := State.atInput_iff_read?.mpr ⟨by decide, held 0 (by decide)⟩
  -- The first line sets the register, and the second is the input.
  let s : State := { m.state with registers := m.state.registers.set 7 5 (by decide) }
  have sets := @Console.turn_of_line m.console _ _ reg7Line (.ofBytes text) _ _ _ rfl rfl
    (effect_reg7Line m.console.slot m.state m.console.disk)
  have effect : Effect m.console.slot (Utf8.decodeLossy (chomp text)) s m.console.disk [120, 10] "" s m.console.disk := by
    have decoded : chomp text = Utf8.encode "x".toList := rfl
    rw [decoded, Utf8.decodeLossy_encode]
    exact .input rfl
  have gives (said : Array UInt8) := @Console.turn_of_line ⟨.ofBytes text, ⟨said, none⟩, [], "save.json", ">>> ", .empty⟩
    s s text (.ofBytes []) _ _ _ rfl rfl effect
  have asked := (Console.nextInput_of_turn_none rfl sets).trans
    ((Console.nextInput_of_turn_none rfl (gives _)).trans (Console.nextInput_of_pending rfl s))
  obtain ⟨written, done⟩ : ∃ written, s.memory.write? 100 120 = some written := by
    refine Option.ne_none_iff_exists'.mp fun none => ?_
    exact absurd (Memory.write?_eq_none_iff.mp none) (by decide)
  have received : s.receive 120 = ({ s with pc := 2, memory := written }, .running) :=
    State.receive_literal (held 1 (by decide)) rfl done
  have executes := (execute_of_atInput waits m.console).trans (congrArg settle asked)
  rw [settle, received] at executes
  have ended : m.step.2 = .ok .running := by rw [step_eq_of_running rfl, executes]
  have state : m.step.1.state = { s with pc := 2, memory := written } := by
    rw [step_of_running rfl, executes]
    rfl
  refine ⟨rfl, ended, step_writes rfl ended, ?_, ?_, ?_⟩
  · rw [state]
    exact (Memory.read?_of_write? done 100).trans (if_pos rfl)
  · rw [state]
    rfl
  · rw [state]

/-! ### Runs -/

/-- The next step may write a cell: with `wmem`, with `in`, or because it loads. -/
def MayWrite (m : Machine) (address : Nat) : Prop :=
  m.loads ≠ [] ∨
    (∃ operand source place, m.state.fetch = .ok (.wmem operand source) ∧
      m.state.registers.resolve? operand = some place ∧ place.toNat = address) ∨
    m.state.atInput = true ∧ ∃ place, m.state.word? 1 = some place ∧ place.toNat = address

theorem read?_step {address : Nat} (kept : ¬ m.MayWrite address) :
    m.step.1.state.memory.read? address = m.state.memory.read? address := by
  have free : m.loads = [] := Decidable.not_not.mp fun loads => kept (.inl loads)
  have base := loaded_of_free free
  cases final : m.status.isFinal with
  | true => rw [step_of_isFinal final]
  | false =>
    have runs := Status.eq_running final
    cases came : m.step.2 with
    | error error =>
      obtain ⟨done, -⟩ := execute_of_failure runs came
      cases waits : m.state.atInput with
      | false =>
        rcases console_of_execute waits done with ⟨-, _, ended⟩ | ⟨_, _, -, -, ⟨-, -, ended⟩ | ⟨_, -, same, -⟩⟩
        · cases ended
        · cases ended
        · rw [same]
      | true =>
        have touched := touched_of_waiting runs waits
        rw [failed_of_execute waits done, base] at touched
        rw [touched.memory]
    | ok status =>
      have writes : m.Writes status := by
        cases waits : m.state.atInput with
        | false => exact writes_of_busy runs waits came
        | true => exact writes_of_waiting runs waits came
      rcases writes.memory with same | ⟨operand, source, place, value, fetched, resolved, -, put⟩ |
        ⟨place, word, waits, -, held, put⟩
      · rw [same, base]
      · rw [Memory.read?_of_write? put, if_neg]
        exact fun same => kept (.inr (.inl ⟨operand, source, place, fetched, resolved, same.symm⟩))
      · rw [base] at held put
        rw [Memory.read?_of_write? put, if_neg]
        exact fun same => kept (.inr (.inr ⟨waits, place, held, same.symm⟩))

/-- A cell that no step of a run may write is as it was before the run. -/
theorem read?_after {address n : Nat} (kept : ∀ k < n, ¬ (m.after k).MayWrite address) :
    (m.after n).state.memory.read? address = m.state.memory.read? address := by
  induction n with
  | zero => rfl
  | succ n ih =>
    have before := ih fun k below => kept k (Nat.lt_succ_of_lt below)
    rw [after, read?_step (kept n (Nat.lt_succ_self n)), before]

end Machine

end WordMachine
