import WordMachine.Proofs.Console.Queue
import WordMachine.Proofs.Machine.Loads

/-!
Where wide words come from, which are those of sixteen bits. What the console gives and what
the program computes has fifteen, and everything else is copied. So a wide word in a register,
on the stack or in memory was there in the beginning or in a state that was loaded
(`Machine.Origin`), but for one: a `call` in the last two cells pushes the address behind
them, which is 32768 (`Machine.origin_of_reached`).
-/
namespace WordMachine

/-! ### Computed words -/

theorem Word.lt_flag (b : Bool) : (flag b).toNat < 32768 := by
  cases b <;> decide

theorem Word.lt_reduce (n : Nat) : (reduce n).toNat < 32768 := by
  rw [toNat_reduce]
  exact Nat.mod_lt n (by decide)

theorem Word.lt_complement (a : Word) : (complement a).toNat < 32768 := lt_reduce _

theorem BinaryOperation.lt_of_eval {op : BinaryOperation} {a b value : Word} (computed : op.eval a b = some value) :
    value.toNat < 32768 := by
  cases op with
  | eq | gt =>
    cases computed
    exact Word.lt_flag _
  | add | mult | and | or =>
    cases computed
    exact Word.lt_reduce _
  | mod =>
    rw [eval] at computed
    split at computed
    · cases computed
    · cases computed
      exact Word.lt_reduce _

/-! ### The words of a state -/

theorem Memory.mem_words_iff {memory : Memory} {word : Word} :
    word ∈ memory.words ↔ ∃ address, memory.read? address = some word := by
  rw [words, List.mem_iff_getElem?]
  simp only [Vector.getElem?_toList, read?]

theorem Memory.mem_words_of_write? {memory written : Memory} {address : Nat} {value word : Word}
    (done : memory.write? address value = some written) (present : word ∈ written.words) :
    word = value ∨ word ∈ memory.words := by
  obtain ⟨place, held⟩ := mem_words_iff.mp present
  rw [read?_of_write? done] at held
  split at held
  · exact .inl (Option.some.inj held).symm
  · exact .inr (mem_words_iff.mpr ⟨place, held⟩)

theorem Registers.mem_of_set {registers : Registers} {index : Nat} (inside : index < 8) {value word : Word}
    (present : word ∈ (registers.set index value inside).toList) : word = value ∨ word ∈ registers.toList := by
  rw [Vector.toList_set] at present
  exact (List.mem_or_eq_of_mem_set present).symm

namespace State

variable {s t : State} {word : Word} {status : Status}

/-- The words in the registers, on the stack and in memory. -/
def words (s : State) : List Word := s.registers.toList ++ s.stack ++ s.memory.words

theorem mem_words_iff : word ∈ s.words ↔ word ∈ s.registers.toList ∨ word ∈ s.stack ∨ word ∈ s.memory.words := by
  simp only [words, List.mem_append, or_assoc]

theorem mem_words_of_register (among : word ∈ s.registers.toList) : word ∈ s.words :=
  mem_words_iff.mpr (.inl among)

theorem mem_words_of_stack (above : word ∈ s.stack) : word ∈ s.words :=
  mem_words_iff.mpr (.inr (.inl above))

theorem mem_words_of_cell (held : word ∈ s.memory.words) : word ∈ s.words :=
  mem_words_iff.mpr (.inr (.inr held))

theorem mem_words_of_subset {pc : Word} {stack : List Word} (less : stack ⊆ s.stack)
    (present : word ∈ words ⟨pc, s.registers, stack, s.memory⟩) : word ∈ s.words :=
  mem_words_iff.mpr ((mem_words_iff.mp present).imp_right (Or.imp_left fun above => less above))

/-- What is put in a register is all that is new. -/
theorem mem_words_of_set {pc value : Word} {index : Nat} {inside : index < 8}
    (present : word ∈ words ⟨pc, s.registers.set index value inside, s.stack, s.memory⟩) :
    word = value ∨ word ∈ s.words := by
  rcases mem_words_iff.mp present with among | above | held
  · exact (Registers.mem_of_set inside among).imp_right mem_words_of_register
  · exact .inr (mem_words_of_stack above)
  · exact .inr (mem_words_of_cell held)

/-- What is put in a cell is all that is new. -/
theorem mem_words_of_write? {pc value : Word} {memory : Memory} {address : Nat}
    (done : s.memory.write? address value = some memory)
    (present : word ∈ words ⟨pc, s.registers, s.stack, memory⟩) : word = value ∨ word ∈ s.words := by
  rcases mem_words_iff.mp present with among | above | held
  · exact .inr (mem_words_of_register among)
  · exact .inr (mem_words_of_stack above)
  · exact (Memory.mem_words_of_write? done held).imp_right mem_words_of_cell

/-- What is pushed is all that is new. -/
theorem mem_words_of_push {pc value : Word}
    (present : word ∈ words ⟨pc, s.registers, value :: s.stack, s.memory⟩) : word = value ∨ word ∈ s.words := by
  rcases mem_words_iff.mp present with among | above | held
  · exact .inr (mem_words_of_register among)
  · exact (List.mem_cons.mp above).imp_right mem_words_of_stack
  · exact .inr (mem_words_of_cell held)

theorem mem_words_of_resolve? {operand : Word} (resolved : s.registers.resolve? operand = some word)
    (wide : 32767 < word.toNat) : word ∈ s.words := by
  rcases Registers.eq_or_mem_of_resolve? resolved with narrow | among
  · exact absurd wide (Nat.not_lt.mpr (Nat.le_of_lt_succ narrow))
  · exact mem_words_of_register among

/-- An instruction works out no wide word. -/
theorem mem_words_of_result {i : Instruction} (result : s.Result i word) (wide : 32767 < word.toNat) : word ∈ s.words := by
  have narrow (computed : word.toNat < 32768) : word ∈ s.words :=
    absurd wide (Nat.not_lt.mpr (Nat.le_of_lt_succ computed))
  cases result with
  | copied resolved => exact mem_words_of_resolve? resolved wide
  | computed _ _ done => exact narrow (BinaryOperation.lt_of_eval done)
  | inverted _ => exact narrow (Word.lt_complement _)
  | read _ held => exact mem_words_of_cell (Memory.mem_words_iff.mpr ⟨_, held⟩)

/-- The wide words after an instruction were there before it, but for the address that a
    `call` pushes. -/
theorem mem_words_of_outcome {i : Instruction} (outcome : s.Outcome i (t, status)) (present : word ∈ t.words)
    (wide : 32767 < word.toNat) :
    word ∈ s.words ∨ word = s.after 2 ∧ i.operation = .call ∧ t.stack = word :: s.stack := by
  cases outcome with
  | halts | ends | jumps | passes | faults => exact .inl present
  | @returns target rest held =>
    have less : rest ⊆ s.stack := by
      rw [held]
      exact List.subset_cons_self target rest
    exact .inl (mem_words_of_subset less present)
  | @drops _ value rest held =>
    have less : rest ⊆ s.stack := by
      rw [held]
      exact List.subset_cons_self value rest
    exact .inl (mem_words_of_subset less present)
  | @pops _ value rest _ held =>
    have less : value :: rest ⊆ s.stack := by
      rw [held]
      exact List.Subset.refl _
    have among := mem_words_of_set (s := { s with stack := rest }) present
    rcases among with rfl | old
    · exact .inl (mem_words_of_stack (less (.head _)))
    · exact .inl (mem_words_of_subset (List.subset_of_cons_subset less) old)
  | assigns _ _ result =>
    rcases mem_words_of_set present with rfl | old
    · exact .inl (mem_words_of_result result wide)
    · exact .inl old
  | stores _ resolved put =>
    rcases mem_words_of_write? put present with rfl | old
    · exact .inl (mem_words_of_resolve? resolved wide)
    · exact .inl old
  | pushes resolved =>
    rcases mem_words_of_push present with rfl | old
    · exact .inl (mem_words_of_resolve? resolved wide)
    · exact .inl old
  | calls resolved =>
    rcases mem_words_of_push present with rfl | old
    · exact .inr ⟨rfl, rfl, rfl⟩
    · exact .inl old

/-- A word of fifteen bits that `in` was given brings no wide word with it. -/
theorem mem_words_of_reception {given : Word} (reception : s.Reception given (t, status)) (narrow : given.toNat < 32768)
    (present : word ∈ t.words) (wide : 32767 < word.toNat) : word ∈ s.words := by
  have other : word ≠ given := by
    rintro rfl
    exact Nat.not_lt.mpr (Nat.le_of_lt_succ narrow) wide
  cases reception with
  | register => exact (mem_words_of_set present).resolve_left other
  | cell _ put => exact (mem_words_of_write? put present).resolve_left other
  | refused | outside => exact present

/-- `reg7` brings no wide word with it. -/
theorem mem_words_of_touched (touched : s.Touched t) (present : word ∈ t.words) (wide : 32767 < word.toNat) :
    word ∈ s.words := by
  cases touched with
  | same => exact present
  | @set value narrow =>
    have other : word ≠ value := by
      rintro rfl
      exact Nat.not_lt.mpr (Nat.le_of_lt_succ narrow) wide
    exact (mem_words_of_set present).resolve_left other

end State

namespace Machine

variable {m n : Machine}

/-- A `call` in the last two cells leads to a state, and pushes the address behind them. -/
structure CallsAtEnd (m : Machine) (t : State) (word : Word) : Prop where
  runs : m.status = .running
  place : m.state.pc = 32766
  code : m.state.word? 0 = some 17
  pushed : t.stack = word :: m.state.stack
  same : word = 32768

/-- Where a word comes from that is in the state of a machine after some number of steps. -/
inductive Origin (m : Machine) (k : Nat) (word : Word) : Prop
  /-- The machine began with it. -/
  | begun : word ∈ m.state.words → Origin m k word
  /-- It was in a state that a step loaded. -/
  | loaded {i : Nat} {s : State} : i < k → s ∈ (m.after i).loads → word ∈ s.words → Origin m k word
  /-- A `call` pushed it. -/
  | called {i : Nat} : i < k → (m.after i).CallsAtEnd (m.after (i + 1)).state word → Origin m k word

theorem Origin.succ {k : Nat} {word : Word} (origin : m.Origin k word) : m.Origin (k + 1) word := by
  cases origin with
  | begun present => exact .begun present
  | loaded before among present => exact .loaded (Nat.lt_succ_of_lt before) among present
  | called before calls => exact .called (Nat.lt_succ_of_lt before) calls

/-- A step leaves lines that were queued in the queue. -/
theorem queued_step (queued : m.console.Queued) : m.step.1.console.Queued := by
  cases final : m.status.isFinal with
  | true =>
    rw [step_of_isFinal final]
    exact queued
  | false =>
    rw [step_of_running (Status.eq_running final), console_conclude]
    cases waits : m.state.atInput with
    | true =>
      rw [execute_of_atInput waits, console_settle]
      exact (queued.nextInput m.state).1
    | false =>
      obtain ⟨bytes, t, status, executes⟩ := exists_execute waits
      rw [executes, console_afterWrite]
      exact queued

/-- The wide words after a step were there before it or were loaded in it, but for the one that
    a `call` pushes. -/
theorem mem_words_step (queued : m.console.Queued) {word : Word} (present : word ∈ m.step.1.state.words)
    (wide : 32767 < word.toNat) :
    word ∈ m.state.words ∨ (∃ s ∈ m.loads, word ∈ s.words) ∨ m.CallsAtEnd m.step.1.state word := by
  cases final : m.status.isFinal with
  | true =>
    rw [step_of_isFinal final] at present
    exact .inl present
  | false =>
    have runs := Status.eq_running final
    -- What a request leaves is what it loaded last, or what was there, but for register 7.
    have asked {delivery : Delivery} {console : Console} {t : State} (waits : m.state.atInput = true)
        (came : m.console.nextInput m.state = (delivery, console, t)) (present : word ∈ t.words) :
        word ∈ m.state.words ∨ (∃ s ∈ m.loads, word ∈ s.words) := by
      have touched := m.console.nextInput_touched m.state
      rw [came, ← loads_of_waiting runs waits] at touched
      have among := State.mem_words_of_touched touched present wide
      cases last : m.loads.getLast? with
      | none =>
        rw [last] at among
        exact .inl among
      | some s =>
        rw [last] at among
        exact .inr ⟨s, List.mem_of_getLast? last, among⟩
    revert present
    refine step_cases (P := fun t _ => word ∈ t.words → word ∈ m.state.words ∨ (∃ s ∈ m.loads, word ∈ s.words) ∨
      m.CallsAtEnd t word) runs ?_ ?_ ?_ ?_ ?_ ?_
    · intro fault _ present
      exact .inl present
    · intro i t status fetched outcome present
      rcases State.mem_words_of_outcome outcome present wide with old | ⟨behind, calls, pushed⟩
      · exact .inl old
      · obtain ⟨code, room⟩ := State.fetch_eq_ok fetched
        rw [Instruction.width, calls] at room
        rw [calls] at code
        have room : m.state.pc.toNat + 2 ≤ 32768 := room
        have number : word.toNat = m.state.pc.toNat + 2 := by
          rw [behind, State.after, UInt16.toNat_add]
          exact Nat.mod_eq_of_lt (Nat.lt_of_le_of_lt room (by decide))
        have place : m.state.pc = 32766 := UInt16.toNat_inj.mp (show m.state.pc.toNat = 32766 by omega)
        have same : word = 32768 := UInt16.toNat_inj.mp (show word.toNat = 32768 by omega)
        exact .inr (.inr ⟨runs, place, code, pushed, same⟩)
    · intro source _ present
      exact .inl present
    · intro error console t waits came present
      exact (asked waits came present).imp_right .inl
    · intro console t waits came present
      exact (asked waits came present).imp_right .inl
    · intro given console t u status waits came reception present
      have narrow := (queued.nextInput m.state).2 given (by rw [came])
      exact (asked waits came (State.mem_words_of_reception reception narrow present wide)).imp_right .inl

/-- Steps keep the queue one of lines, and bring no wide word but from where it may come. -/
theorem origin_after (queued : m.console.Queued) (k : Nat) : (m.after k).console.Queued ∧
    ∀ word ∈ (m.after k).state.words, 32767 < word.toNat → m.Origin k word := by
  induction k with
  | zero => exact ⟨queued, fun word present _ => .begun present⟩
  | succ k ih =>
    obtain ⟨still, known⟩ := ih
    refine ⟨queued_step still, fun word present wide => ?_⟩
    rcases mem_words_step still present wide with old | ⟨s, among, held⟩ | calls
    · exact (known word old wide).succ
    · exact .loaded (Nat.lt_succ_self k) among held
    · exact .called (Nat.lt_succ_self k) calls

/-- A machine that begins with lines queued, or with nothing pending, and comes to another one
    by steps and runs: every wide word there has an origin, the queue and what it gives
    has fifteen bits, and so has what `reg7` sets and what is computed. -/
theorem origin_of_reached (queued : m.console.Queued) (reached : m.Reached n) :
    (∃ k, n = m.after k ∧ ∀ word ∈ n.state.words, 32767 < word.toNat → m.Origin k word) ∧
      (∀ word ∈ n.console.pending, word.toNat ≤ 32767) ∧
      (∀ word, (n.console.nextInput n.state).1 = .word word → word.toNat ≤ 32767) ∧
      (∀ line value, Command.parse line = .ok (.setRegister7 value) → value.toNat ≤ 32767) ∧
      (∀ (op : BinaryOperation) (a b value : Word), op.eval a b = some value → value.toNat ≤ 32767) ∧
      ∀ a : Word, (Word.complement a).toNat ≤ 32767 := by
  obtain ⟨k, rfl⟩ := reached.exists_after
  obtain ⟨still, known⟩ := origin_after queued k
  exact ⟨⟨k, rfl, known⟩, fun word waits => Nat.le_of_lt_succ (still.lt waits),
    fun word given => Nat.le_of_lt_succ ((still.nextInput _).2 word given),
    fun line value parsed => Nat.le_of_lt_succ (Command.lt_of_parse_setRegister7 parsed),
    fun op a b value done => Nat.le_of_lt_succ (BinaryOperation.lt_of_eval done),
    fun a => Nat.le_of_lt_succ (Word.lt_complement a)⟩

/-- A `call` to the first cell, in the last two cells. -/
private theorem stack_of_call_at_end (runs : m.status = .running) (place : m.state.pc = 32766)
    (empty : m.state.stack = []) (code : m.state.memory.read? 32766 = some 17)
    (operand : m.state.memory.read? 32767 = some 0) : m.step.1.state.stack = [32768] := by
  have calls : m.state.word? 0 = some 17 := by
    rw [State.word?, place]
    exact code
  have target : m.state.word? 1 = some 0 := by
    rw [State.word?, place]
    exact operand
  rw [step_of_call runs calls target (Registers.resolve?_of_lt _ (by decide))]
  simp only [conclude, State.after, place, empty]
  rfl

/-- A line is queued, and the program begins with a `call` in the last two cells. -/
theorem origin_of_call_at_end :
    let m : Machine := new ⟨32766, .zero, [], .padded (List.replicate 32766 0 ++ [17])⟩
      (Console.queueLine ⟨.ofBytes [], .new none, [], "save.json", ">>> ", .empty⟩ "go ☃") none
    m.console.Queued ∧ m.Reached m.step.1 ∧ m.step.1.state.stack = [32768] ∧
      (∃ k, m.step.1 = m.after k ∧ m.Origin k 32768) ∧ ∀ word ∈ m.step.1.console.pending, word.toNat ≤ 32767 := by
  intro m
  have code : m.state.memory.read? 32766 = some 17 := by
    refine (Memory.read?_padded _ (by decide)).trans (congrArg some ?_)
    rw [List.getElem?_append_right (Nat.le_of_eq List.length_replicate), List.length_replicate]
    rfl
  have operand : m.state.memory.read? 32767 = some 0 := by
    refine (Memory.read?_padded _ (by decide)).trans (congrArg some ?_)
    rw [List.getElem?_append_right (by rw [List.length_replicate]; decide), List.length_replicate]
    rfl
  have stack : m.step.1.state.stack = [32768] := stack_of_call_at_end rfl rfl rfl code operand
  have queued : m.console.Queued := (Console.queued_of_empty rfl).queueLine "go ☃"
  obtain ⟨⟨k, same, known⟩, pending, -⟩ := origin_of_reached queued (.step .start)
  have present : 32768 ∈ m.step.1.state.words := State.mem_words_of_stack (by rw [stack]; exact .head _)
  exact ⟨queued, .step .start, stack, ⟨k, same, known 32768 present (by decide)⟩, pending⟩

end Machine

end WordMachine
