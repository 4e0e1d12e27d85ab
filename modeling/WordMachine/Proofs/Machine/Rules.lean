import WordMachine.Proofs.Machine.Outcome

/-!
The rules of the instruction set. `Rule.order` has them in the order in which they are looked
at, and `State.breach?` gives the fault of a state that breaks one of them. An instruction
that needs no device faults with the first rule that it breaks and has its effect if it breaks
none (`State.status_perform`). So a step faults if and only if a rule is broken, and reports
the first one that is (`Machine.faults_by_rule`).
-/
namespace WordMachine

namespace Instruction

/-- The operand that has to name a register. -/
def assigned? : Instruction → Option Word
  | pop destination => some destination
  | i => i.destination?

/-- The operand whose value has to be the address of a cell. -/
def address? : Instruction → Option Word
  | rmem _ operand | wmem operand _ => some operand
  | _ => none

/-- The operand whose value must not be zero. -/
def divisor? : Instruction → Option Word
  | binary .mod _ _ right => some right
  | _ => none

end Instruction

/-- What the instruction set asks of a state before an instruction has its effect. -/
inductive Rule
  /-- The program counter is the address of a cell. -/
  | counter
  /-- The word there is the number of an operation. -/
  | opcode
  /-- The operands lie in memory. -/
  | operands
  /-- There is something on the stack for `pop`. -/
  | entry
  /-- Every operand has a value whose value is needed. -/
  | sources
  /-- Nothing is divided by zero. -/
  | divisor
  /-- There is a cell at the address that is read or written. -/
  | address
  /-- The destination is a register. -/
  | destination
deriving DecidableEq

/-- The rules in the order in which they are looked at. -/
def Rule.order : List Rule := [counter, opcode, operands, entry, sources, divisor, address, destination]

namespace State

/-- The operand at whose value the program goes on, if there is one. A jump on a condition has
    one only if it is taken. -/
def target? (s : State) : Instruction → Option Word
  | .jmp target | .call target => some target
  | .jt condition target =>
    (s.registers.resolve? condition).bind fun value => if value = 0 then none else some target
  | .jf condition target =>
    (s.registers.resolve? condition).bind fun value => if value = 0 then some target else none
  | _ => none

/-- The operands whose values are needed, in their order. The target of a jump on a condition
    is one of them only if the jump is taken. -/
def needed (s : State) : Instruction → List Word
  | .jt condition target => condition :: (s.target? (.jt condition target)).toList
  | .jf condition target => condition :: (s.target? (.jf condition target)).toList
  | i => i.sources

/-- The fault of an instruction that breaks a rule. -/
def breachBy? (s : State) (i : Instruction) : Rule → Option Fault
  | .counter | .opcode | .operands => none
  | .entry => if i.operation = .pop ∧ s.stack = [] then some (.emptyStack s.pc) else none
  | .sources => ((s.needed i).find? fun word => 32776 ≤ word.toNat).map (.invalidOperand s.pc)
  | .divisor => if i.divisor?.bind s.registers.resolve? = some 0 then some (.divisionByZero s.pc) else none
  | .address =>
    (i.address?.bind s.registers.resolve?).bind fun address =>
      if Memory.size ≤ address.toNat then some (.addressOutOfRange s.pc address.toNat) else none
  | .destination =>
    i.assigned?.bind fun word =>
      if word.toNat < 32768 ∨ 32776 ≤ word.toNat then some (.invalidRegister s.pc word) else none

/-- The fault of a state that breaks a rule. -/
def breach? (s : State) : Rule → Option Fault
  | .counter => if Memory.size ≤ s.pc.toNat then some (.addressOutOfRange s.pc s.pc.toNat) else none
  | .opcode => (s.word? 0).bind fun word => if 22 ≤ word.toNat then some (.unknownOpcode s.pc word) else none
  | .operands =>
    ((s.word? 0).bind Operation.ofWord?).bind fun op =>
      if Memory.size ≤ s.pc.toNat + op.arity then some (.addressOutOfRange s.pc Memory.size) else none
  | rule => s.fetch.toOption.bind fun i => s.breachBy? i rule

/-- What becomes of an instruction that faults with the first rule that it breaks. -/
def verdict (s : State) (i : Instruction) : Status :=
  match Rule.order.findSome? (s.breachBy? i) with
  | some fault => .faulted fault
  | none => if i = .halt ∨ i = .ret ∧ s.stack = [] then .halted else .running

variable {s : State} {i : Instruction}

/-! ### Instructions -/

theorem verdict_eq (s : State) (i : Instruction) : s.verdict i
    = match ((s.breachBy? i .entry).or <| (s.breachBy? i .sources).or <| (s.breachBy? i .divisor).or <|
        (s.breachBy? i .address).or (s.breachBy? i .destination)) with
      | some fault => .faulted fault
      | none => if i = .halt ∨ i = .ret ∧ s.stack = [] then .halted else .running := by
  simp only [verdict, Rule.order, List.findSome?_cons, List.findSome?_nil, breachBy?.eq_1, breachBy?.eq_2,
    breachBy?.eq_3]
  cases s.breachBy? i .entry <;> cases s.breachBy? i .sources <;> cases s.breachBy? i .divisor <;>
    cases s.breachBy? i .address <;> cases s.breachBy? i .destination <;> rfl

theorem status_withValue {operand : Word} {next : Word → State × Status} {status : Status}
    (known : ∀ value, s.registers.resolve? operand = some value → operand.toNat < 32776 → (next value).2 = status)
    (unknown : 32776 ≤ operand.toNat → status = .faulted (.invalidOperand s.pc operand)) :
    (s.withValue operand next).2 = status := by
  refine withValue_cases (P := fun done => done.2 = status) ?_ (fun beyond => (unknown beyond).symm)
  intro value resolved
  refine known value resolved (Nat.lt_of_not_le fun beyond => ?_)
  rw [Registers.resolve?_eq_none_iff.mpr beyond] at resolved
  cases resolved

theorem status_assign {destination value : Word} {width : Nat} {status : Status}
    (named : ¬ (destination.toNat < 32768 ∨ 32776 ≤ destination.toNat) → status = .running)
    (other : destination.toNat < 32768 ∨ 32776 ≤ destination.toNat →
      status = .faulted (.invalidRegister s.pc destination)) :
    (s.assign destination value width).2 = status := by
  refine assign_cases (P := fun done => done.2 = status) ?_ (fun is => (other is).symm)
  intro index is
  exact (named (by omega)).symm

section

attribute [local simp] breachBy? needed target? Instruction.operation Instruction.sources Instruction.destination?
  Instruction.assigned? Instruction.address? Instruction.divisor?

/-- An instruction faults with the first rule that it breaks, and otherwise stops or goes on. -/
theorem status_perform (silent : ∀ source, i ≠ .out source) (deaf : ∀ destination, i ≠ .input destination) :
    (s.perform i).2 = s.verdict i := by
  rw [verdict_eq]
  cases i with
  | out source => exact absurd rfl (silent source)
  | input destination => exact absurd rfl (deaf destination)
  | halt => simp [perform]
  | noop => simp [perform, goto]
  | set d a | not d a =>
    refine status_withValue (fun value _ known => ?_) (fun beyond => by simp [beyond])
    exact status_assign (fun named => by simp [known, named]) (fun other => by simp [known, other])
  | push a => exact status_withValue (fun value _ known => by simp [known]) (fun beyond => by simp [beyond])
  | pop d =>
    simp only [perform]
    split
    · next empty => simp [fail, empty]
    · next value rest held =>
      refine status_assign (s := { s with stack := rest }) ?_ ?_
      · intro named
        simp [held, named]
      · intro other
        simp [held, other]
  | binary op d a b =>
    have unlike : op.operation ≠ .pop := by cases op <;> simp [BinaryOperation.operation]
    refine status_withValue (fun first _ known => ?_) (fun beyond => by simp [unlike, beyond])
    refine status_withValue (fun second found also => ?_) (fun beyond => by simp [unlike, known, beyond])
    -- Both operands have values, so the divisor is the next to be looked at.
    have valued : (s.breachBy? (.binary op d a b) .entry).or (s.breachBy? (.binary op d a b) .sources) = none := by
      simp [unlike, known, also]
    cases computed : op.eval first second with
    | none =>
      obtain ⟨rfl, rfl⟩ := BinaryOperation.eval_eq_none_iff.mp computed
      simp [BinaryOperation.operation, known, also, found, fail]
    | some value =>
      have divides : s.breachBy? (.binary op d a b) .divisor = none := by
        cases op with
        | mod =>
          have nonzero : second ≠ 0 := by
            rintro rfl
            rw [BinaryOperation.eval_eq_none_iff.mpr ⟨rfl, rfl⟩] at computed
            cases computed
          simp [found, nonzero]
        | _ => simp
      rw [← Option.or_assoc, valued, divides]
      exact status_assign (fun named => by simp [named]) (fun other => by simp [other])
  | jmp a => exact status_withValue (fun value _ known => by simp [goto, known]) (fun beyond => by simp [beyond])
  | jt c a =>
    refine status_withValue (fun value resolved known => ?_) (fun beyond => by simp [beyond])
    by_cases zero : value = 0
    · simp [zero, resolved, known, goto]
    · rw [if_pos zero]
      exact status_withValue (fun place _ also => by simp [zero, resolved, known, also, goto])
        (fun beyond => by simp [zero, resolved, known, beyond])
  | jf c a =>
    refine status_withValue (fun value resolved known => ?_) (fun beyond => by simp [beyond])
    by_cases zero : value = 0
    · rw [if_pos zero]
      exact status_withValue (fun place _ also => by simp [zero, resolved, known, also, goto])
        (fun beyond => by simp [zero, resolved, known, beyond])
    · simp [zero, resolved, known, goto]
  | rmem d a =>
    refine status_withValue (fun address resolved known => ?_) (fun beyond => by simp [beyond])
    cases held : s.memory.read? address.toNat with
    | none =>
      have outside := Memory.read?_eq_none_iff.mp held
      simp [fail, resolved, known, outside]
    | some value =>
      have inside : ¬ Memory.size ≤ address.toNat := by
        intro outside
        rw [Memory.read?_eq_none_iff.mpr outside] at held
        cases held
      exact status_assign (fun named => by simp [resolved, known, inside, named])
        (fun other => by simp [resolved, known, inside, other])
  | wmem a b =>
    refine status_withValue (fun address resolved known => ?_) (fun beyond => by simp [beyond])
    refine status_withValue (fun value _ also => ?_) (fun beyond => by simp [known, beyond])
    refine store_cases (P := fun done => done.2 = _) (fun memory put => ?_)
      (fun beyond => by simp [known, also, resolved, beyond])
    have inside : ¬ Memory.size ≤ address.toNat := by
      intro outside
      rw [Memory.write?_eq_none_iff.mpr outside] at put
      cases put
    simp [known, also, resolved, inside]
  | call a => exact status_withValue (fun value _ known => by simp [known]) (fun beyond => by simp [beyond])
  | ret =>
    simp only [perform]
    cases held : s.stack <;> simp [held]

theorem verdict_out {source : Word} (beyond : 32776 ≤ source.toNat) :
    s.verdict (.out source) = .faulted (.invalidOperand s.pc source) := by
  rw [verdict_eq]
  simp [beyond]

/-- `out` breaks no rule if its operand has a value. -/
theorem breachBy?_out {source word : Word} (resolved : s.registers.resolve? source = some word) (rule : Rule) :
    s.breachBy? (.out source) rule = none := by
  have known : source.toNat < 32776 := by
    refine Nat.lt_of_not_le fun beyond => ?_
    rw [Registers.resolve?_eq_none_iff.mpr beyond] at resolved
    cases resolved
  cases rule <;> simp [known]

theorem breachBy?_of_idle (idle : i = .halt ∨ i = .ret ∨ i = .noop) (rule : Rule) : s.breachBy? i rule = none := by
  rcases idle with rfl | rfl | rfl <;> cases rule <;> simp

end

/-- What becomes of an instruction is a fault if and only if it breaks a rule, and then that of
    the first. -/
theorem verdict_eq_faulted_iff {fault : Fault} :
    s.verdict i = .faulted fault ↔ Rule.order.findSome? (s.breachBy? i) = some fault := by
  unfold verdict
  cases Rule.order.findSome? (s.breachBy? i) with
  | some first => simp
  | none =>
    simp only [reduceCtorEq, iff_false]
    split <;> nofun

theorem verdict_of_unbroken (kept : ∀ rule, s.breachBy? i rule = none) :
    s.verdict i = if i = .halt ∨ i = .ret ∧ s.stack = [] then .halted else .running := by
  rw [verdict, List.findSome?_eq_none_iff.mpr fun rule _ => kept rule]

/-! ### Fetching -/

theorem breach?_of_fetch (fetched : s.fetch = .ok i) : s.breach? = s.breachBy? i := by
  have code := word?_operation fetched
  have room : s.pc.toNat + (1 + i.operation.arity) ≤ Memory.size := (fetch_eq_ok fetched).2
  have named : Operation.ofWord? i.operation.code = some i.operation := Operation.ofWord?_code _
  funext rule
  cases rule with
  | counter => exact if_neg (by omega)
  | opcode =>
    have known : ¬ 22 ≤ i.operation.code.toNat := by
      rw [← Operation.ofWord?_eq_none_iff, named]
      nofun
    simp [breach?, breachBy?, code, known]
  | operands => simp [breach?, breachBy?, code, named, show ¬ Memory.size ≤ s.pc.toNat + i.operation.arity by omega]
  | entry | sources | divisor | address | destination => simp [breach?, fetched, Except.toOption]

/-- If no instruction can be fetched, the first rule that is broken says why. -/
theorem findSome?_breach?_of_unfetched {fault : Fault} (failed : s.fetch = .error fault) :
    Rule.order.findSome? s.breach? = some fault := by
  have inside {word : Word} (held : s.word? 0 = some word) : ¬ Memory.size ≤ s.pc.toNat :=
    Nat.not_le.mpr (inside_of_word? held)
  rcases fetch_eq_error failed with ⟨outside, rfl⟩ | ⟨word, held, unnamed, rfl⟩ | ⟨op, code, beyond, rfl⟩
  · simp [Rule.order, breach?, outside]
  · simp [Rule.order, breach?, inside held, held, unnamed]
  · have known : ¬ 22 ≤ op.code.toNat := by
      rw [← Operation.ofWord?_eq_none_iff, Operation.ofWord?_code]
      nofun
    simp [Rule.order, breach?, inside code, code, known, beyond]

end State

/-! ### Steps -/

namespace Machine

variable {m : Machine}

/-- A step with an instruction other than `in` comes to what the rules say, unless it is `out`
    and its character cannot be written. -/
theorem result_cases (runs : m.status = .running) {i : Instruction} (fetched : m.state.fetch = .ok i)
    (deaf : ∀ destination, i ≠ .input destination) :
    m.step.2 = .ok (m.state.verdict i) ∨
      ∃ source word error, i = .out source ∧ m.state.registers.resolve? source = some word ∧
        (m.console.emit word).2 = some error ∧ m.step.2 = .error error := by
  by_cases silent : ∀ source, i ≠ .out source
  · left
    rw [result_of_fetch runs fetched silent deaf, State.status_perform silent deaf]
  · obtain ⟨source, rfl⟩ : ∃ source, i = .out source := by
      simpa using silent
    have came : m.step.2 = (output m.state m.console source).2.2 := by
      rw [step_eq_of_running runs, execute_of_out fetched]
    rw [came]
    refine output_cases (P := fun came => came.2.2 = .ok (m.state.verdict (.out source)) ∨
      ∃ other word error, Instruction.out source = .out other ∧ m.state.registers.resolve? other = some word ∧
        (m.console.emit word).2 = some error ∧ came.2.2 = .error error) ?_ ?_ ?_
    · intro beyond
      rw [State.verdict_out beyond]
      exact .inl rfl
    · intro word _ resolved _
      rw [State.verdict_of_unbroken (State.breachBy?_out resolved), if_neg (by simp)]
      exact .inl rfl
    · intro word _ error resolved unwritten
      exact .inr ⟨source, word, error, rfl, resolved, by rw [unwritten], rfl⟩

/-- Faults happen if and only if a rule of the instruction set is broken, for any contents of
    the machine: the step of an instruction other than `in` reports the fault of the first
    rule that is broken, in their order. No rule can be broken by `halt`, `ret` and `noop`
    once they are fetched. An instruction that breaks none has its effect and counts, unless
    it is `out` and its character cannot be written. -/
theorem faults_by_rule (runs : m.status = .running) (busy : m.state.atInput = false) :
    (∀ fault, m.step.2 = .ok (.faulted fault) ↔ Rule.order.findSome? m.state.breach? = some fault) ∧
    ((∃ fault, m.step.2 = .ok (.faulted fault)) ↔ ∃ rule fault, m.state.breach? rule = some fault) ∧
    (∀ i, m.state.fetch = .ok i → i = .halt ∨ i = .ret ∨ i = .noop → ∀ fault, m.step.2 ≠ .ok (.faulted fault)) ∧
    ((∀ word, (m.console.emit word).2 = none) → (∀ rule, m.state.breach? rule = none) →
      ∃ i status, m.state.fetch = .ok i ∧ m.state.Outcome i (m.step.1.state, status) ∧ m.step.2 = .ok status ∧
        (status = .running ∨ status = .halted) ∧ m.step.1.status = status ∧ m.step.1.steps = m.steps + 1) := by
  have deaf {i : Instruction} (fetched : m.state.fetch = .ok i) : ∀ destination, i ≠ .input destination :=
    State.ne_input_of_busy busy fetched
  have reports (fault : Fault) :
      m.step.2 = .ok (.faulted fault) ↔ Rule.order.findSome? m.state.breach? = some fault := by
    cases fetched : m.state.fetch with
    | error first =>
      rw [result_of_unfetched runs fetched, State.findSome?_breach?_of_unfetched fetched]
      simp
    | ok i =>
      rw [State.breach?_of_fetch fetched]
      rcases result_cases runs fetched (deaf fetched) with done | ⟨source, word, error, rfl, resolved, -, failed⟩
      · rw [done, ← State.verdict_eq_faulted_iff]
        simp
      · rw [failed, List.findSome?_eq_none_iff.mpr fun rule _ => State.breachBy?_out resolved rule]
        simp
  refine ⟨reports, ?_, ?_, ?_⟩
  · simp only [reports]
    constructor
    · rintro ⟨fault, first⟩
      obtain ⟨rule, -, broken⟩ := List.exists_of_findSome?_eq_some first
      exact ⟨rule, fault, broken⟩
    · rintro ⟨rule, fault, broken⟩
      refine Option.isSome_iff_exists.mp (List.findSome?_isSome_iff.mpr ⟨rule, ?_, ?_⟩)
      · cases rule <;> decide
      · rw [broken]
        rfl
  · intro i fetched idle fault
    rw [Ne, reports, State.breach?_of_fetch fetched,
      List.findSome?_eq_none_iff.mpr fun rule _ => State.breachBy?_of_idle idle rule]
    nofun
  · intro writes kept
    cases fetched : m.state.fetch with
    | error fault =>
      have broken := State.findSome?_breach?_of_unfetched fetched
      rw [List.findSome?_eq_none_iff.mpr fun rule _ => kept rule] at broken
      cases broken
    | ok i =>
      rcases result_cases runs fetched (deaf fetched) with done | ⟨_, word, _, -, -, failed, -⟩
      · have unbroken : ∀ rule, m.state.breachBy? i rule = none := by
          rw [← State.breach?_of_fetch fetched]
          exact kept
        have goesOn : m.state.verdict i = .running ∨ m.state.verdict i = .halted := by
          rw [State.verdict_of_unbroken unbroken]
          split
          · exact .inr rfl
          · exact .inl rfl
        obtain ⟨-, status, counted⟩ := execute_of_result runs done
        exact ⟨i, _, rfl, outcome_of_result runs fetched busy done, done, goesOn, status, counted⟩
      · rw [writes word] at failed
        cases failed

/-- A remainder that has nothing to divide by and no register to go to: the divisor is looked
    at first. -/
theorem faults_by_rule_mod :
    let m : Machine := new (.start (.padded [11, 5, 7, 32769])) ⟨.ofBytes [], .new none, [], "save.json", ">>> ", .empty⟩ none
    m.status = .running ∧ m.state.atInput = false ∧ m.state.breach? .divisor = some (.divisionByZero 0) ∧
      m.state.breach? .destination = some (.invalidRegister 0 5) ∧ m.step.2 = .ok (.faulted (.divisionByZero 0)) := by
  intro m
  have fetched : m.state.fetch = .ok (.binary .mod 5 7 32769) := State.fetch_padded [] rfl rfl (by decide)
  have busy : m.state.atInput = false := by
    rw [State.atInput, fetched]
  have kept : ∀ rule, rule ∈ [Rule.counter, .opcode, .operands, .entry, .sources, .address] →
      m.state.breach? rule = none := by
    rw [State.breach?_of_fetch fetched]
    decide
  have divides : m.state.breach? .divisor = some (.divisionByZero 0) := by
    rw [State.breach?_of_fetch fetched]
    decide
  have names : m.state.breach? .destination = some (.invalidRegister 0 5) := by
    rw [State.breach?_of_fetch fetched]
    decide
  refine ⟨rfl, busy, divides, names, ((faults_by_rule (m := m) rfl busy).1 _).mpr ?_⟩
  simp [Rule.order, kept, divides]

end Machine

end WordMachine
