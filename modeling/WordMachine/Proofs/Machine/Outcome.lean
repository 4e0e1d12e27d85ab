import WordMachine.Proofs.Machine.Step

/-!
Outcomes of instructions. `State.Outcome` lists all that an instruction other than `in` can
come to, with the condition under which it does, and `State.Reception` all that a word can
come to that `in` was given. Whatever an instruction does is one of these
(`outcome_perform`, `reception_receive`), and a step is an outcome, or a request to the
console with what was made of it (`Machine.step_cases`).
-/
namespace WordMachine

namespace Instruction

/-- The operands of which an instruction takes the value. -/
def sources : Instruction → List Word
  | halt | pop _ | ret | input _ | noop => []
  | push a | jmp a | call a | out a | set _ a | not _ a | rmem _ a => [a]
  | jt a b | jf a b | wmem a b | binary _ _ a b => [a, b]

/-- The operand that has to name a register for what an instruction works out. -/
def destination? : Instruction → Option Word
  | set d _ | binary _ d _ _ | not d _ | rmem d _ => some d
  | _ => none

@[simp] theorem width_binary (op : BinaryOperation) (destination left right : Word) :
    (binary op destination left right).width = 4 := by
  cases op <;> rfl

theorem mem_operands_of_sources {i : Instruction} {word : Word} (used : word ∈ i.sources) : word ∈ i.operands := by
  cases i <;> simp_all [sources, operands]

theorem operands_of_destination {i : Instruction} {word : Word} (named : i.destination? = some word) :
    i.operands[0]? = some word := by
  cases i <;> simp_all [destination?, operands]

/-- An instruction is given by its operation and its operands. -/
theorem apply_operation {i : Instruction} {v : Vector Word i.operation.arity} (same : v.toList = i.operands) :
    i.operation.apply v = i := by
  obtain ⟨⟨words⟩, length⟩ := v
  obtain rfl : words = i.operands := same
  cases i with
  | binary op => cases op <;> rfl
  | _ => rfl

end Instruction

namespace State

variable {s : State}

/-- The word that lies so many cells behind the one at the program counter. -/
def word? (s : State) (k : Nat) : Option Word := s.memory.read? (s.pc.toNat + k)

/-- What is wrong with an instruction that faults. -/
inductive Refusal (s : State) : Instruction → Fault → Prop
  | operand {i : Instruction} {word : Word} : word ∈ i.sources → 32776 ≤ word.toNat →
      Refusal s i (.invalidOperand s.pc word)
  | register {i : Instruction} {word : Word} : i.destination? = some word →
      (word.toNat < 32768 ∨ 32776 ≤ word.toNat) → Refusal s i (.invalidRegister s.pc word)
  | emptyStack {destination : Word} : s.stack = [] → Refusal s (.pop destination) (.emptyStack s.pc)
  | division {destination left right : Word} : s.registers.resolve? right = some 0 →
      Refusal s (.binary .mod destination left right) (.divisionByZero s.pc)
  | read {destination operand address : Word} : s.registers.resolve? operand = some address →
      Memory.size ≤ address.toNat → Refusal s (.rmem destination operand) (.addressOutOfRange s.pc address.toNat)
  | write {operand source address : Word} : s.registers.resolve? operand = some address →
      Memory.size ≤ address.toNat → Refusal s (.wmem operand source) (.addressOutOfRange s.pc address.toNat)

/-- The word that an instruction works out from its operands. -/
inductive Result (s : State) : Instruction → Word → Prop
  | copied {destination source value : Word} : s.registers.resolve? source = some value →
      Result s (.set destination source) value
  | computed {op : BinaryOperation} {destination left right a b value : Word} :
      s.registers.resolve? left = some a → s.registers.resolve? right = some b → op.eval a b = some value →
      Result s (.binary op destination left right) value
  | inverted {destination source value : Word} : s.registers.resolve? source = some value →
      Result s (.not destination source) (Word.complement value)
  | read {destination operand address value : Word} : s.registers.resolve? operand = some address →
      s.memory.read? address.toNat = some value → Result s (.rmem destination operand) value

/-- The operand to whose value an instruction jumps. -/
inductive Jump (s : State) : Instruction → Word → Prop
  | always {target : Word} : Jump s (.jmp target) target
  | ifTrue {condition target value : Word} : s.registers.resolve? condition = some value → value ≠ 0 →
      Jump s (.jt condition target) target
  | ifFalse {condition target : Word} : s.registers.resolve? condition = some 0 → Jump s (.jf condition target) target

/-- The instruction does nothing to the state but to go on to the next. -/
inductive Idle (s : State) : Instruction → Prop
  | noop : Idle s .noop
  | ifTrue {condition target : Word} : s.registers.resolve? condition = some 0 → Idle s (.jt condition target)
  | ifFalse {condition target value : Word} : s.registers.resolve? condition = some value → value ≠ 0 →
      Idle s (.jf condition target)
  | out {source value : Word} : s.registers.resolve? source = some value → Idle s (.out source)

/-- All that an instruction other than `in` can come to, if no device fails. -/
inductive Outcome (s : State) : Instruction → State × Status → Prop
  | halts : Outcome s .halt (s, .halted)
  | ends : s.stack = [] → Outcome s .ret (s, .halted)
  | returns {target : Word} {rest : List Word} : s.stack = target :: rest →
      Outcome s .ret ({ s with stack := rest, pc := target }, .running)
  | assigns {i : Instruction} {destination value : Word} {index : Fin 8} : i.destination? = some destination →
      destination.toNat = 32768 + index.val → s.Result i value →
      Outcome s i ({ s with registers := s.registers.set index value index.isLt, pc := s.after i.width }, .running)
  | pops {destination value : Word} {rest : List Word} {index : Fin 8} : s.stack = value :: rest →
      destination.toNat = 32768 + index.val →
      Outcome s (.pop destination)
        ({ s with registers := s.registers.set index value index.isLt, stack := rest, pc := s.after 2 }, .running)
  | drops {destination value : Word} {rest : List Word} : s.stack = value :: rest →
      (destination.toNat < 32768 ∨ 32776 ≤ destination.toNat) →
      Outcome s (.pop destination) ({ s with stack := rest }, .faulted (.invalidRegister s.pc destination))
  | stores {operand source address value : Word} {memory : Memory} : s.registers.resolve? operand = some address →
      s.registers.resolve? source = some value → s.memory.write? address.toNat value = some memory →
      Outcome s (.wmem operand source) ({ s with memory := memory, pc := s.after 3 }, .running)
  | pushes {source value : Word} : s.registers.resolve? source = some value →
      Outcome s (.push source) ({ s with stack := value :: s.stack, pc := s.after 2 }, .running)
  | calls {operand target : Word} : s.registers.resolve? operand = some target →
      Outcome s (.call operand) ({ s with stack := s.after 2 :: s.stack, pc := target }, .running)
  | jumps {i : Instruction} {operand target : Word} : s.Jump i operand → s.registers.resolve? operand = some target →
      Outcome s i ({ s with pc := target }, .running)
  | passes {i : Instruction} : s.Idle i → Outcome s i ({ s with pc := s.after i.width }, .running)
  | faults {i : Instruction} {fault : Fault} : s.Refusal i fault → Outcome s i (s, .faulted fault)

/-! ### The parts of instructions -/

theorem withValue_cases {P : State × Status → Prop} {operand : Word} {next : Word → State × Status}
    (known : ∀ value, s.registers.resolve? operand = some value → P (next value))
    (unknown : 32776 ≤ operand.toNat → P (s, .faulted (.invalidOperand s.pc operand))) :
    P (s.withValue operand next) := by
  unfold withValue
  split
  · next value resolved => exact known value resolved
  · next unresolved => exact unknown (Registers.resolve?_eq_none_iff.mp unresolved)

theorem assign_cases {P : State × Status → Prop} {destination value : Word} {width : Nat}
    (named : ∀ index : Fin 8, destination.toNat = 32768 + index.val →
      P ({ s with registers := s.registers.set index value index.isLt, pc := s.after width }, .running))
    (other : destination.toNat < 32768 ∨ 32776 ≤ destination.toNat →
      P (s, .faulted (.invalidRegister s.pc destination))) :
    P (s.assign destination value width) := by
  unfold assign
  rcases Operand.classify_cases destination with ⟨below, literal⟩ | ⟨index, is, register⟩ | ⟨beyond, invalid⟩
  · rw [literal]
    exact other (.inl below)
  · rw [register]
    exact named index is
  · rw [invalid]
    exact other (.inr beyond)

theorem store_cases {P : State × Status → Prop} {address value : Word} {width : Nat}
    (written : ∀ memory, s.memory.write? address.toNat value = some memory →
      P ({ s with memory := memory, pc := s.after width }, .running))
    (beyond : Memory.size ≤ address.toNat → P (s, .faulted (.addressOutOfRange s.pc address.toNat))) :
    P (s.store address value width) := by
  obtain ⟨pc, registers, stack, memory⟩ := s
  simp only [store]
  cases put : memory.write? address.toNat value with
  | some after => exact written after put
  | none => exact beyond (Memory.write?_eq_none_iff.mp put)

/-- Instructions that need no device come to one of the outcomes. -/
theorem outcome_perform {i : Instruction} (silent : ∀ source, i ≠ .out source)
    (deaf : ∀ destination, i ≠ .input destination) : s.Outcome i (s.perform i) := by
  cases i with
  | halt => exact .halts
  | noop => exact .passes .noop
  | out source => exact absurd rfl (silent source)
  | input destination => exact absurd rfl (deaf destination)
  | set destination source =>
    refine withValue_cases (fun value resolved => ?_) (fun beyond => .faults (.operand (.head _) beyond))
    exact assign_cases (fun index named => .assigns rfl named (.copied resolved))
      (fun other => .faults (.register rfl other))
  | push source =>
    exact withValue_cases (fun value resolved => .pushes resolved)
      (fun beyond => .faults (.operand (.head _) beyond))
  | pop destination =>
    simp only [perform]
    split
    · next empty => exact .faults (.emptyStack empty)
    · next value rest held =>
      exact assign_cases (fun index named => .pops held named) (fun other => .drops held other)
  | binary op destination left right =>
    refine withValue_cases (fun a first => ?_) (fun beyond => .faults (.operand (.head _) beyond))
    refine withValue_cases (fun b second => ?_) (fun beyond => .faults (.operand (.tail _ (.head _)) beyond))
    split
    · next value computed =>
      rw [← Instruction.width_binary op destination left right]
      exact assign_cases (fun index named => .assigns rfl named (.computed first second computed))
        (fun other => .faults (.register rfl other))
    · next undefined =>
      obtain ⟨rfl, rfl⟩ := BinaryOperation.eval_eq_none_iff.mp undefined
      exact .faults (.division second)
  | jmp target =>
    exact withValue_cases (fun place resolved => .jumps .always resolved)
      (fun beyond => .faults (.operand (.head _) beyond))
  | jt condition target =>
    refine withValue_cases (fun value resolved => ?_) (fun beyond => .faults (.operand (.head _) beyond))
    split
    · next holds =>
      exact withValue_cases (fun place found => .jumps (.ifTrue resolved holds) found)
        (fun beyond => .faults (.operand (.tail _ (.head _)) beyond))
    · next fails =>
      obtain rfl := Decidable.not_not.mp fails
      exact .passes (.ifTrue resolved)
  | jf condition target =>
    refine withValue_cases (fun value resolved => ?_) (fun beyond => .faults (.operand (.head _) beyond))
    split
    · next fails =>
      subst fails
      exact withValue_cases (fun place found => .jumps (.ifFalse resolved) found)
        (fun beyond => .faults (.operand (.tail _ (.head _)) beyond))
    · next holds => exact .passes (.ifFalse resolved holds)
  | not destination source =>
    refine withValue_cases (fun value resolved => ?_) (fun beyond => .faults (.operand (.head _) beyond))
    exact assign_cases (fun index named => .assigns rfl named (.inverted resolved))
      (fun other => .faults (.register rfl other))
  | rmem destination operand =>
    refine withValue_cases (fun address resolved => ?_) (fun beyond => .faults (.operand (.head _) beyond))
    split
    · next value held =>
      exact assign_cases (fun index named => .assigns rfl named (.read resolved held))
        (fun other => .faults (.register rfl other))
    · next outside => exact .faults (.read resolved (Memory.read?_eq_none_iff.mp outside))
  | wmem operand source =>
    refine withValue_cases (fun address resolved => ?_) (fun beyond => .faults (.operand (.head _) beyond))
    refine withValue_cases (fun value found => ?_) (fun beyond => .faults (.operand (.tail _ (.head _)) beyond))
    exact store_cases (fun memory put => .stores resolved found put) (fun beyond => .faults (.write resolved beyond))
  | call operand =>
    exact withValue_cases (fun target resolved => .calls resolved)
      (fun beyond => .faults (.operand (.head _) beyond))
  | ret =>
    simp only [perform]
    split
    · next empty => exact .ends empty
    · next target rest held => exact .returns held

/-- All that a word can come to that `in` was given. -/
inductive Reception (s : State) (word : Word) : State × Status → Prop
  | register {destination : Word} {index : Fin 8} : s.word? 1 = some destination →
      destination.toNat = 32768 + index.val →
      Reception s word ({ s with registers := s.registers.set index word index.isLt, pc := s.after 2 }, .running)
  | cell {address : Word} {memory : Memory} : s.word? 1 = some address →
      s.memory.write? address.toNat word = some memory →
      Reception s word ({ s with memory := memory, pc := s.after 2 }, .running)
  | refused {operand : Word} : s.word? 1 = some operand → 32776 ≤ operand.toNat →
      Reception s word (s, .faulted (.invalidRegister s.pc operand))
  | outside : s.word? 1 = none →
      Reception s word (s, .faulted (.addressOutOfRange s.pc (s.pc.toNat + 1)))

theorem reception_receive (s : State) (word : Word) : s.Reception word (s.receive word) := by
  unfold receive
  cases held : s.memory.read? (s.pc.toNat + 1) with
  | none => exact .outside held
  | some destination =>
    simp only
    rcases Operand.classify_cases destination with ⟨below, literal⟩ | ⟨index, named, register⟩ | ⟨beyond, invalid⟩
    · rw [literal]
      exact store_cases (fun memory put => .cell held put) (fun past => absurd below (Nat.not_lt.mpr past))
    · rw [register]
      exact .register held named
    · rw [invalid]
      exact .refused held beyond

theorem Reception.stack {word : Word} {t : State} {status : Status} (reception : s.Reception word (t, status)) :
    t.stack = s.stack := by
  cases reception <;> rfl

theorem Reception.pc {word : Word} {t : State} (reception : s.Reception word (t, .running)) : t.pc = s.after 2 := by
  cases reception <;> rfl

/-! ### Fetching -/

/-- The operands of the instruction that is fetched lie behind it. -/
theorem word?_operand {i : Instruction} (fetched : s.fetch = .ok i) {k : Nat} {word : Word}
    (operand : i.operands[k]? = some word) : s.word? (k + 1) = some word := by
  unfold fetch at fetched
  split at fetched
  · cases fetched
  · split at fetched
    · cases fetched
    · next op _ =>
      split at fetched
      · cases fetched
      · next cut sliced =>
        cases fetched
        rw [Operation.operands_apply] at operand
        obtain ⟨inside, rfl⟩ := List.getElem?_eq_some_iff.mp operand
        rw [Vector.length_toList] at inside
        rw [word?, Nat.add_comm k, ← Nat.add_assoc, Memory.read?_of_slice? sliced inside, Vector.getElem_toList]

theorem word?_operation {i : Instruction} (fetched : s.fetch = .ok i) : s.word? 0 = some i.operation.code :=
  (fetch_eq_ok fetched).1

theorem inside_of_word? {k : Nat} {word : Word} (held : s.word? k = some word) : s.pc.toNat + k < Memory.size := by
  refine Nat.lt_of_not_le fun beyond => ?_
  rw [word?, Memory.read?_eq_none_iff.mpr beyond] at held
  cases held

/-- The word at the program counter says which operation is fetched, if all of its operands
    lie in memory. -/
theorem exists_fetch_apply {op : Operation} (code : s.word? 0 = some op.code)
    (room : s.pc.toNat + op.arity < Memory.size) : ∃ operands : Vector Word op.arity,
      s.fetch = .ok (op.apply operands) ∧ ∀ k (inside : k < op.arity), s.word? (k + 1) = some operands[k] := by
  have fits : s.pc.toNat + 1 + op.arity ≤ Memory.size := by omega
  obtain ⟨operands, fetched⟩ := exists_fetch code (Operation.ofWord?_code op) fits
  refine ⟨operands, fetched, fun k inside => word?_operand fetched ?_⟩
  rw [Operation.operands_apply, List.getElem?_eq_getElem (by simpa using inside), Vector.getElem_toList]

/-- The instruction is fetched whose words lie at the program counter. -/
theorem fetch_of_words {i : Instruction}
    (lie : ∀ k word, (i.operation.code :: i.operands)[k]? = some word → s.word? k = some word) : s.fetch = .ok i := by
  have room : s.pc.toNat + i.operation.arity < Memory.size := by
    have last : i.operation.arity < (i.operation.code :: i.operands).length := by
      rw [List.length_cons, i.length_operands]
      exact Nat.lt_succ_self _
    exact inside_of_word? (lie _ _ (List.getElem?_eq_getElem last))
  obtain ⟨operands, fetched, found⟩ := exists_fetch_apply (lie 0 _ rfl) room
  rw [fetched, Instruction.apply_operation]
  refine List.ext_getElem (by simp [i.length_operands]) ?_
  intro k inside below
  have held := found k (by simpa using inside)
  rw [lie (k + 1) _ (List.getElem?_eq_getElem below), Option.some.injEq] at held
  rw [Vector.getElem_toList, held]

/-- The words of a program that is about to run. -/
theorem word?_padded {words : List Word} (memory : s.memory = .padded words) (start : s.pc = 0)
    (room : words.length ≤ Memory.size) {k : Nat} {word : Word} (at_k : words[k]? = some word) :
    s.word? k = some word := by
  obtain ⟨below, rfl⟩ := List.getElem?_eq_some_iff.mp at_k
  rw [word?, memory, start, show (0 : Word).toNat + k = k from Nat.zero_add k]
  exact Memory.read?_padded_getElem room below

/-- A program that is about to run begins with its first instruction. -/
theorem fetch_padded {i : Instruction} (rest : List Word)
    (memory : s.memory = .padded (i.operation.code :: i.operands ++ rest)) (start : s.pc = 0)
    (room : (i.operation.code :: i.operands ++ rest).length ≤ Memory.size) : s.fetch = .ok i := by
  refine fetch_of_words fun k word at_k => word?_padded memory start room ?_
  rw [List.getElem?_append_left (List.getElem?_eq_some_iff.mp at_k).1, at_k]

theorem operation_of_fetch {i : Instruction} (fetched : s.fetch = .ok i) {op : Operation}
    (code : s.word? 0 = some op.code) : i.operation = op := by
  have same : i.operation.code = op.code := Option.some.inj ((word?_operation fetched).symm.trans code)
  have named := Operation.ofWord?_code i.operation
  rw [same, Operation.ofWord?_code] at named
  exact (Option.some.inj named).symm

/-- No instruction is fetched past the last cell, for a word without a meaning, or with an
    operand past the last cell. -/
theorem fetch_eq_error {fault : Fault} (failed : s.fetch = .error fault) :
    (Memory.size ≤ s.pc.toNat ∧ fault = .addressOutOfRange s.pc s.pc.toNat) ∨
      (∃ word, s.word? 0 = some word ∧ 22 ≤ word.toNat ∧ fault = .unknownOpcode s.pc word) ∨
      ∃ op : Operation, s.word? 0 = some op.code ∧ Memory.size ≤ s.pc.toNat + op.arity ∧
        fault = .addressOutOfRange s.pc Memory.size := by
  unfold fetch at failed
  split at failed
  · next outside =>
    cases failed
    exact .inl ⟨Memory.read?_eq_none_iff.mp outside, rfl⟩
  · next word held =>
    split at failed
    · next unnamed =>
      cases failed
      exact .inr (.inl ⟨word, held, Operation.ofWord?_eq_none_iff.mp unnamed, rfl⟩)
    · next op named =>
      split at failed
      · next short =>
        cases failed
        have beyond := Memory.slice?_eq_none_iff.mp short
        rw [Operation.ofWord?_eq_some_iff.mp named] at held
        exact .inr (.inr ⟨op, held, by omega, rfl⟩)
      · cases failed

end State

namespace Machine

/-- The step of a machine that cannot fetch an instruction. -/
theorem step_of_unfetched {m : Machine} (runs : m.status = .running) {fault : Fault}
    (failed : m.state.fetch = .error fault) :
    m.step.1 = m.conclude (m.state, m.console, .ok (.faulted fault)) := by
  rw [step_of_running runs, execute, failed]

/-- `out` faults if its operand has no value; otherwise it writes the character, and goes on if
    that does not fail. -/
theorem output_cases {P : State × Console × Except DeviceError Status → Prop} {s : State} {console : Console}
    {source : Word} (unknown : 32776 ≤ source.toNat → P (s, console, .ok (.faulted (.invalidOperand s.pc source))))
    (written : ∀ word after, s.registers.resolve? source = some word → console.emit word = (after, none) →
      P ({ s with pc := s.after 2 }, after, .ok .running))
    (unwritten : ∀ word after error, s.registers.resolve? source = some word →
      console.emit word = (after, some error) → P (s, after, .error error)) :
    P (output s console source) := by
  unfold output
  cases resolved : s.registers.resolve? source with
  | none => exact unknown (Registers.resolve?_eq_none_iff.mp resolved)
  | some word =>
    rcases emitted : console.emit word with ⟨after, _ | error⟩
    · simp only [emitted]
      exact written word after resolved emitted
    · simp only [emitted]
      exact unwritten word after error resolved emitted

theorem execute_of_out {s : State} {source : Word} (fetched : s.fetch = .ok (.out source)) (console : Console) :
    execute s console = output s console source := by
  rw [execute, fetched]

/-- An instruction that needs no device does what it does to the state. -/
theorem execute_of_fetch {s : State} {i : Instruction} (fetched : s.fetch = .ok i)
    (silent : ∀ source, i ≠ .out source) (deaf : ∀ destination, i ≠ .input destination) (console : Console) :
    execute s console = ((s.perform i).1, console, .ok (s.perform i).2) := by
  rw [execute, fetched]
  cases i with
  | out source => exact absurd rfl (silent source)
  | input destination => exact absurd rfl (deaf destination)
  | _ => rfl

/-- The step of an instruction that needs no device. -/
theorem step_of_fetch {m : Machine} (runs : m.status = .running) {i : Instruction} (fetched : m.state.fetch = .ok i)
    (silent : ∀ source, i ≠ .out source) (deaf : ∀ destination, i ≠ .input destination) :
    m.step.1 = m.conclude ((m.state.perform i).1, m.console, .ok (m.state.perform i).2) := by
  rw [step_of_running runs, execute_of_fetch fetched silent deaf]

theorem result_of_fetch {m : Machine} (runs : m.status = .running) {i : Instruction} (fetched : m.state.fetch = .ok i)
    (silent : ∀ source, i ≠ .out source) (deaf : ∀ destination, i ≠ .input destination) :
    m.step.2 = .ok (m.state.perform i).2 := by
  rw [step_eq_of_running runs, execute_of_fetch fetched silent deaf]

/-- What holds of each state and status that a step may come to holds of those that it comes
    to: no instruction could be fetched; an instruction came to one of its outcomes; `out`
    could not write its character; or `in` asked the console, which failed, had no more
    input, or gave a word. -/
theorem step_cases {m : Machine} (runs : m.status = .running) {P : State → Status → Prop}
    (unfetched : ∀ fault, m.state.fetch = .error fault → P m.state (.faulted fault))
    (done : ∀ i t status, m.state.fetch = .ok i → m.state.Outcome i (t, status) → P t status)
    (unwritten : ∀ source, m.state.fetch = .ok (.out source) → P m.state .running)
    (failed : ∀ error console t, m.state.atInput = true →
      m.console.nextInput m.state = (.failed error, console, t) → P t .running)
    (closed : ∀ console t, m.state.atInput = true → m.console.nextInput m.state = (.closed, console, t) →
      P t .inputClosed)
    (given : ∀ word console t u status, m.state.atInput = true →
      m.console.nextInput m.state = (.word word, console, t) → t.Reception word (u, status) → P u status) :
    P m.step.1.state m.step.1.status := by
  rw [step_of_running runs]
  cases waits : m.state.atInput with
  | true =>
    rw [execute_of_atInput waits]
    rcases asked : m.console.nextInput m.state with ⟨word | _ | error, console, t⟩
    · exact given word console t _ _ waits asked (t.reception_receive word)
    · exact closed console t waits asked
    · rw [← runs] at failed
      exact failed error console t waits asked
  | false =>
    cases fetched : m.state.fetch with
    | error fault =>
      rw [execute, fetched]
      exact unfetched fault fetched
    | ok i =>
      have deaf := State.ne_input_of_busy waits fetched
      by_cases silent : ∀ source, i ≠ .out source
      · rw [execute_of_fetch fetched silent deaf]
        exact done i _ _ fetched (State.outcome_perform silent deaf)
      · obtain ⟨source, rfl⟩ : ∃ source, i = .out source := by simpa using silent
        rw [execute_of_out fetched]
        rw [← runs] at unwritten
        refine output_cases (P := fun came => P (m.conclude came).state (m.conclude came).status) ?_ ?_ ?_
        · exact fun beyond => done _ _ _ fetched (.faults (.operand (.head _) beyond))
        · exact fun word _ resolved _ => done _ _ _ fetched (.passes (.out resolved))
        · exact fun _ _ _ _ _ => unwritten source fetched

/-- An instruction other than `in` comes to one of its outcomes unless a device fails. -/
theorem outcome_of_execute {s t : State} {console after : Console} {status : Status} {i : Instruction}
    (fetched : s.fetch = .ok i) (deaf : ∀ destination, i ≠ .input destination)
    (done : execute s console = (t, after, .ok status)) : s.Outcome i (t, status) := by
  by_cases silent : ∀ source, i ≠ .out source
  · rw [execute_of_fetch fetched silent deaf] at done
    cases done
    exact State.outcome_perform silent deaf
  · obtain ⟨source, rfl⟩ : ∃ source, i = .out source := by simpa using silent
    rw [execute_of_out fetched] at done
    revert done
    refine output_cases (P := fun came => came = _ → s.Outcome _ (t, status)) ?_ ?_ ?_
    · rintro beyond ⟨⟩
      exact .faults (.operand (.head _) beyond)
    · rintro word _ resolved - ⟨⟩
      exact .passes (.out resolved)
    · nofun

/-- Only `out` does anything to the console, apart from `in`: it writes the character of a word,
    and goes on if that does not fail. -/
theorem console_of_execute {s t : State} {console after : Console} {result : Except DeviceError Status}
    (busy : s.atInput = false) (done : execute s console = (t, after, result)) :
    after = console ∧ (∃ status, result = .ok status) ∨
      ∃ source word, s.fetch = .ok (.out source) ∧ s.registers.resolve? source = some word ∧
        (console.emit word = (after, none) ∧ t = { s with pc := s.after 2 } ∧ result = .ok .running ∨
          ∃ error, console.emit word = (after, some error) ∧ t = s ∧ result = .error error) := by
  cases fetched : s.fetch with
  | error fault =>
    rw [execute, fetched] at done
    cases done
    exact .inl ⟨rfl, _, rfl⟩
  | ok i =>
    by_cases silent : ∀ source, i ≠ .out source
    · rw [execute_of_fetch fetched silent (State.ne_input_of_busy busy fetched)] at done
      cases done
      exact .inl ⟨rfl, _, rfl⟩
    · obtain ⟨source, rfl⟩ : ∃ source, i = .out source := by simpa using silent
      rw [execute_of_out fetched] at done
      revert done
      refine output_cases (P := fun came => came = _ → _) ?_ ?_ ?_
      · rintro - ⟨⟩
        exact .inl ⟨rfl, _, rfl⟩
      · rintro word _ resolved written ⟨⟩
        exact .inr ⟨source, word, rfl, resolved, .inl ⟨written, rfl, rfl⟩⟩
      · rintro word _ error resolved unwritten ⟨⟩
        exact .inr ⟨source, word, rfl, resolved, .inr ⟨error, unwritten, rfl, rfl⟩⟩

/-- What a step comes to that ends without a failure and asks for no input. -/
theorem outcome_of_result {m : Machine} (runs : m.status = .running) {i : Instruction} (fetched : m.state.fetch = .ok i)
    (busy : m.state.atInput = false) {status : Status} (ended : m.step.2 = .ok status) :
    m.state.Outcome i (m.step.1.state, status) :=
  outcome_of_execute fetched (State.ne_input_of_busy busy fetched) (execute_of_result runs ended).1

/-- An `in` that no device fails has found the input closed, or was given a word. -/
theorem reception_of_execute {s t : State} {console after : Console} {status : Status} (waits : s.atInput = true)
    (done : execute s console = (t, after, .ok status)) :
    status = .inputClosed ∧ console.nextInput s = (.closed, after, t) ∨
      ∃ word u, console.nextInput s = (.word word, after, u) ∧ u.Reception word (t, status) := by
  rw [execute_of_atInput waits] at done
  rcases asked : console.nextInput s with ⟨word | _ | error, came, u⟩
  · rw [asked] at done
    cases done
    exact .inr ⟨word, u, rfl, u.reception_receive word⟩
  · rw [asked] at done
    cases done
    exact .inl ⟨rfl, rfl⟩
  · rw [asked] at done
    cases done

/-- An `in` that a device fails has asked the console in vain. -/
theorem failed_of_execute {s t : State} {console after : Console} {error : DeviceError} (waits : s.atInput = true)
    (done : execute s console = (t, after, .error error)) : console.nextInput s = (.failed error, after, t) := by
  rw [execute_of_atInput waits] at done
  rcases asked : console.nextInput s with ⟨word | _ | failure, came, u⟩
  · rw [asked] at done
    cases done
  · rw [asked] at done
    cases done
  · rw [asked] at done
    cases done
    rfl

/-! ### Steps that move the stack -/

theorem step_of_push {m : Machine} (runs : m.status = .running) (code : m.state.word? 0 = some 2) {operand value : Word}
    (source : m.state.word? 1 = some operand) (resolved : m.state.registers.resolve? operand = some value) :
    m.step.1 = m.conclude ({ m.state with stack := value :: m.state.stack, pc := m.state.after 2 }, m.console, .ok .running) := by
  obtain ⟨operands, fetched, lies⟩ :=
    @State.exists_fetch_apply m.state .push code (State.inside_of_word? source)
  have same : operands[0] = operand := Option.some.inj ((lies 0 Nat.one_pos).symm.trans source)
  rw [step_of_fetch runs fetched nofun nofun]
  simp only [Operation.apply, State.perform, State.withValue, same, resolved]

theorem step_of_call {m : Machine} (runs : m.status = .running) (code : m.state.word? 0 = some 17) {operand target : Word}
    (source : m.state.word? 1 = some operand) (resolved : m.state.registers.resolve? operand = some target) :
    m.step.1 = m.conclude ({ m.state with stack := m.state.after 2 :: m.state.stack, pc := target }, m.console, .ok .running) := by
  obtain ⟨operands, fetched, lies⟩ :=
    @State.exists_fetch_apply m.state .call code (State.inside_of_word? source)
  have same : operands[0] = operand := Option.some.inj ((lies 0 Nat.one_pos).symm.trans source)
  rw [step_of_fetch runs fetched nofun nofun]
  simp only [Operation.apply, State.perform, State.withValue, same, resolved]

theorem step_of_pop {m : Machine} (runs : m.status = .running) (code : m.state.word? 0 = some 3) {operand value : Word}
    {rest : List Word} {index : Fin 8} (destination : m.state.word? 1 = some operand)
    (named : operand.toNat = 32768 + index.val) (held : m.state.stack = value :: rest) :
    m.step.1 = m.conclude ({ m.state with
      registers := m.state.registers.set index value index.isLt, stack := rest, pc := m.state.after 2 }, m.console,
      .ok .running) := by
  obtain ⟨operands, fetched, lies⟩ :=
    @State.exists_fetch_apply m.state .pop code (State.inside_of_word? destination)
  have same : operands[0] = operand := Option.some.inj ((lies 0 Nat.one_pos).symm.trans destination)
  rw [step_of_fetch runs fetched nofun nofun]
  simp only [Operation.apply, State.perform, held, State.assign, same, Operand.classify_of_register named]
  rfl

theorem step_of_ret {m : Machine} (runs : m.status = .running) (code : m.state.word? 0 = some 18) {target : Word}
    {rest : List Word} (held : m.state.stack = target :: rest) :
    m.step.1 = m.conclude ({ m.state with stack := rest, pc := target }, m.console, .ok .running) := by
  obtain ⟨operands, fetched, -⟩ := @State.exists_fetch_apply m.state .ret code (State.inside_of_word? code)
  rw [step_of_fetch runs fetched nofun nofun]
  simp only [Operation.apply, State.perform, held]

end Machine

end WordMachine
