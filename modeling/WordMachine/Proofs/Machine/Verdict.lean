import WordMachine.Proofs.Machine.Loads

/-!
What the status of a stopped machine says is so in the state that it leaves
(`Machine.verdict_of_reached`). A fault carries the address of the instruction that the
program counter still points at, and the words and addresses that it names are there
(`Fault.IsSo`); a machine that halted is at a `halt`, or at a `ret` with an empty stack; and
one whose input closed has nothing pending or unread, and waits at an `in` unless it loaded
another state at its last prompt.
-/
namespace WordMachine

/-- What a fault says is so in a state, which is the one that it left. An operand past the
    last cell may be that of the `in` that waited while the given states were loaded. -/
def Fault.IsSo (s : State) (loaded : List State) (fault : Fault) : Prop :=
  fault.pc = s.pc ∧
    match fault with
    | .unknownOpcode _ word => s.word? 0 = some word ∧ 22 ≤ word.toNat
    | .emptyStack _ => s.word? 0 = some 3 ∧ s.stack = []
    | .invalidOperand _ word => 32776 ≤ word.toNat ∧
        ∃ (op : Operation) (k : Nat), s.word? 0 = some op.code ∧ 1 ≤ k ∧ k ≤ op.arity ∧ s.word? k = some word
    | .invalidRegister _ word => s.word? 1 = some word ∧ (word.toNat < 32768 ∨ 32775 < word.toNat)
    | .divisionByZero _ => s.word? 0 = some 11 ∧
        ∃ operand, s.word? 3 = some operand ∧ s.registers.resolve? operand = some 0
    | .addressOutOfRange _ address => 32768 ≤ address ∧
        (address = s.pc.toNat ∨
          address = 32768 ∧ s.pc.toNat < 32768 ∧ (∃ op : Operation,
            (s.word? 0 = some op.code ∨ op = .input ∧ loaded ≠ []) ∧ 32768 ≤ s.pc.toNat + op.arity) ∨
          ∃ operand value, (s.word? 0 = some 15 ∧ s.word? 2 = some operand ∨
              s.word? 0 = some 16 ∧ s.word? 1 = some operand) ∧
            s.registers.resolve? operand = some value ∧ address = value.toNat)

/-- What a status says is so in the state that it comes with, if the given states were loaded
    just before. -/
def Status.IsSo (s : State) (loaded : List State) : Status → Prop
  | .running => True
  | .halted => s.word? 0 = some 0 ∨ s.word? 0 = some 18 ∧ s.stack = []
  | .inputClosed => loaded = [] → s.word? 0 = some 20
  | .faulted fault => fault.IsSo s loaded

namespace State

variable {s t : State} {i : Instruction} {status : Status} {fault : Fault}

theorem isSo_of_fetch (failed : s.fetch = .error fault) (loaded : List State) : fault.IsSo s loaded := by
  rcases fetch_eq_error failed with ⟨beyond, rfl⟩ | ⟨word, held, unknown, rfl⟩ | ⟨op, held, beyond, rfl⟩
  · exact ⟨rfl, beyond, .inl rfl⟩
  · exact ⟨rfl, held, unknown⟩
  · exact ⟨rfl, Nat.le_refl _, .inr (.inl ⟨rfl, inside_of_word? held, op, .inl held, beyond⟩)⟩

theorem isSo_of_refusal (fetched : s.fetch = .ok i) (refusal : s.Refusal i fault) (loaded : List State) :
    fault.IsSo s loaded := by
  have operation := word?_operation fetched
  cases refusal with
  | @operand _ word used beyond =>
    obtain ⟨k, inside, at_k⟩ := List.getElem_of_mem (Instruction.mem_operands_of_sources used)
    have lies : s.word? (k + 1) = some word := word?_operand fetched (by rw [List.getElem?_eq_getElem inside, at_k])
    rw [Instruction.length_operands] at inside
    exact ⟨rfl, beyond, i.operation, k + 1, operation, Nat.le_add_left 1 k, inside, lies⟩
  | register named other =>
    have lies := word?_operand fetched (Instruction.operands_of_destination named)
    exact ⟨rfl, lies, other.imp_right Nat.lt_of_succ_le⟩
  | emptyStack empty => exact ⟨rfl, operation, empty⟩
  | division zero => exact ⟨rfl, operation, _, word?_operand (k := 2) fetched rfl, zero⟩
  | read resolved beyond =>
    have lies := word?_operand (k := 1) fetched rfl
    exact ⟨rfl, beyond, .inr (.inr ⟨_, _, .inl ⟨operation, lies⟩, resolved, rfl⟩)⟩
  | write resolved beyond =>
    have lies := word?_operand (k := 0) fetched rfl
    exact ⟨rfl, beyond, .inr (.inr ⟨_, _, .inr ⟨operation, lies⟩, resolved, rfl⟩)⟩

theorem isSo_of_outcome (fetched : s.fetch = .ok i) (outcome : s.Outcome i (t, status)) (loaded : List State) :
    status.IsSo t loaded := by
  have operation := word?_operation fetched
  cases outcome with
  | halts => exact .inl operation
  | ends empty => exact .inr ⟨operation, empty⟩
  | drops _ other => exact ⟨rfl, word?_operand (k := 0) fetched rfl, other.imp_right Nat.lt_of_succ_le⟩
  | faults refusal => exact isSo_of_refusal fetched refusal loaded
  | returns | assigns | pops | stores | pushes | calls | jumps | passes => trivial

/-- A word for `in` finds no operand only past the last cell, to which nothing but a load
    leads. -/
theorem isSo_of_reception {word : Word} (reception : s.Reception word (t, status)) {loaded : List State}
    (inside : s.pc.toNat < Memory.size) (reloaded : s.word? 1 = none → loaded ≠ []) : status.IsSo t loaded := by
  cases reception with
  | register | cell => trivial
  | refused held beyond => exact ⟨rfl, held, .inr (Nat.lt_of_succ_le beyond)⟩
  | outside past =>
    have beyond : 32768 ≤ s.pc.toNat + 1 := Memory.read?_eq_none_iff.mp past
    have last : s.pc.toNat + 1 = 32768 := Nat.le_antisymm inside beyond
    exact ⟨rfl, beyond, .inr (.inl ⟨last, inside, .input, .inr ⟨rfl, reloaded past⟩, beyond⟩)⟩

end State

/-! ### The end of the input -/

theorem Source.lineAfter_closed {taken : List UInt8} {signals : List Signal}
    (closed : (lineAfter taken signals).1 = .closed) : (lineAfter taken signals).2 = [] := by
  induction signals generalizing taken with
  | nil => rfl
  | cons signal signals ih =>
    cases signal with
    | broken => cases closed
    | byte b =>
      rw [lineAfter] at closed ⊢
      split at closed
      · cases closed
      · next other =>
        rw [if_neg other]
        exact ih closed

theorem Source.signals_of_closed {source rest : Source} (closed : source.readLine = (.closed, rest)) :
    rest.signals = [] := by
  have found : (lineAfter [] source.signals).1 = .closed := congrArg Prod.fst closed
  have left : rest.signals = (lineAfter [] source.signals).2 := congrArg (fun came => came.2.signals) closed.symm
  exact left.trans (lineAfter_closed found)

/-- A turn closes the input only if nothing of it is left. -/
theorem Console.turn_closed {console after : Console} {s t : State} (turned : console.turn s = (some .closed, after, t)) :
    after.pending = console.pending ∧ after.source.signals = [] := by
  obtain ⟨asked, failure, written⟩ := exists_write console (bytesOfText console.prompt)
  rcases read : console.source.readLine with ⟨line | _ | error, rest⟩
  · obtain ⟨words, answer, u, disk, effect⟩ :=
      exists_effect console.slot (Utf8.decodeLossy (chomp line)) s console.disk
    rw [turn_of_effect read effect, written] at turned
    cases failure with
    | some error => cases turned
    | none =>
      simp only at turned
      split at turned <;> cases turned
  · rw [turn_of_refusal read rfl, written] at turned
    cases failure with
    | some error => cases turned
    | none =>
      cases turned
      exact ⟨rfl, Source.signals_of_closed read⟩
  · rw [turn_of_refusal read rfl, written] at turned
    cases failure <;> cases turned

/-- A request is closed only with nothing pending and nothing left to read. -/
theorem Console.nextInput_closed {console after : Console} {s t : State}
    (asked : console.nextInput s = (.closed, after, t)) : after.pending = [] ∧ after.source.signals = [] := by
  have closed : (console.nextInput s).1 = .closed → (console.nextInput s).2.1.pending = [] ∧
      (console.nextInput s).2.1.source.signals = [] := by
    refine nextInput_induction
      (P := fun _ _ came => came.1 = .closed → came.2.1.pending = [] ∧ came.2.1.source.signals = []) ?_ ?_ ?_ console s
    · intro console s word rest _ ends
      cases ends
    · intro console s delivery after t empty turned ends
      cases ends
      obtain ⟨pending, read⟩ := turn_closed turned
      exact ⟨pending.trans empty, read⟩
    · intro console s after t came _ _ ih
      exact ih
  rw [asked] at closed
  exact closed rfl

namespace Machine

/-- What the status of a machine says is so, if its last step loaded the given states. -/
structure Verdict (m : Machine) (loaded : List State) : Prop where
  state : m.status.IsSo m.state loaded
  console : m.status = .inputClosed → m.console.pending = [] ∧ m.console.source.signals = []

theorem console_step_of_closed {m : Machine} (runs : m.status = .running) (closed : m.step.1.status = .inputClosed) :
    m.step.1.console.pending = [] ∧ m.step.1.console.source.signals = [] := by
  cases waits : m.state.atInput with
  | false => exact absurd closed (status_step_of_busy runs waits)
  | true =>
    rcases asked : m.console.nextInput m.state with ⟨word | _ | error, console, t⟩
    · exact absurd closed (status_step_of_word runs waits asked)
    · rw [step_of_running runs, execute_of_atInput waits, asked]
      exact Console.nextInput_closed asked
    · rw [step_of_running runs, execute_of_atInput waits, asked] at closed
      exact absurd (runs.symm.trans closed) nofun

/-- A step leaves a status that is so. -/
theorem isSo_step {m : Machine} (runs : m.status = .running) : m.step.1.status.IsSo m.step.1.state m.loads := by
  -- While nothing is loaded, the instruction at the program counter stays the `in` that waits.
  have waiting {delivery : Delivery} {console : Console} {t : State} (waits : m.state.atInput = true)
      (asked : m.console.nextInput m.state = (delivery, console, t)) (free : m.loads = []) :
      t.pc.toNat ≤ 32766 ∧ t.word? 0 = some 20 := by
    rw [loads_of_waiting runs waits] at free
    have touched := Console.touched_of_loads_eq_nil asked free
    rw [State.word?, touched.pc, touched.memory]
    exact State.atInput_iff_read?.mp waits
  refine step_cases (P := fun t status => status.IsSo t m.loads) runs ?_ ?_ ?_ ?_ ?_ ?_
  · intro fault failed
    exact State.isSo_of_fetch failed _
  · intro i t status fetched outcome
    exact State.isSo_of_outcome fetched outcome _
  · intro source _
    trivial
  · intro error console t _ _
    trivial
  · intro console t waits asked free
    exact (waiting waits asked free).2
  · intro word console t u status waits asked reception
    refine State.isSo_of_reception reception (Console.inside_nextInput asked (State.inside_of_atInput waits)) ?_
    intro past free
    have low := (waiting waits asked free).1
    have beyond : 32768 ≤ t.pc.toNat + 1 := Memory.read?_eq_none_iff.mp past
    omega

theorem verdict_step {m : Machine} (runs : m.status = .running) : m.step.1.Verdict m.loads :=
  ⟨isSo_step runs, console_step_of_closed runs⟩

/-- A machine that has stopped after some number of steps did so in the last step that it took
    while it ran. -/
theorem exists_last_step {m : Machine} (runs : m.status = .running) (k : Nat) : (m.after k).status = .running ∨
    ∃ l, l < k ∧ (m.after l).status = .running ∧ m.after k = (m.after l).step.1 := by
  induction k with
  | zero => exact .inl runs
  | succ k ih =>
    right
    cases final : (m.after k).status.isFinal with
    | false => exact ⟨k, Nat.lt_succ_self k, Status.eq_running final, rfl⟩
    | true =>
      rcases ih with still | ⟨l, below, ran, last⟩
      · rw [still] at final
        cases final
      · refine ⟨l, Nat.lt_succ_of_lt below, ran, ?_⟩
        rw [after, step_of_isFinal final, last]

/-- A machine that has stopped, however it came to by steps and runs, has a status that says
    what is so: of the state, and of what is pending and unread, as the step left them that
    stopped it. -/
theorem verdict_of_reached {m n : Machine} (runs : m.status = .running) (reached : m.Reached n)
    (stopped : n.status ≠ .running) :
    ∃ p, m.Reached p ∧ p.status = .running ∧ n = p.step.1 ∧ n.Verdict p.loads := by
  obtain ⟨k, rfl⟩ := reached.exists_after
  rcases exists_last_step runs k with still | ⟨l, -, ran, last⟩
  · exact absurd still stopped
  · refine ⟨m.after l, m.reached_after l, ran, last, ?_⟩
    rw [last]
    exact verdict_step ran

/-- A division by a register that is zero. -/
private theorem status_of_division {m : Machine} (runs : m.status = .running) (zero : m.state.registers[1] = 0)
    (held : ∀ k (below : k < 4), m.state.word? k = some ([11, 32768, 7, 32769] : List Word)[k]) :
    m.step.1.status = .faulted (.divisionByZero m.state.pc) := by
  obtain ⟨operands, fetched, lies⟩ :=
    @State.exists_fetch_apply m.state .mod (held 0 (by decide)) (State.inside_of_word? (held 3 (by decide)))
  have left : operands[1] = 7 := Option.some.inj ((lies 1 (by decide)).symm.trans (held 2 (by decide)))
  have right : operands[2] = 32769 := Option.some.inj ((lies 2 (by decide)).symm.trans (held 3 (by decide)))
  have dividend : m.state.registers.resolve? 7 = some 7 := Registers.resolve?_of_lt _ (by decide)
  have divisor : m.state.registers.resolve? 32769 = some 0 := by
    have named : (32769 : Word).toNat = 32768 + (1 : Fin 8).val := rfl
    rw [Registers.resolve?_of_register _ named]
    exact congrArg some zero
  rw [step_of_fetch runs fetched nofun nofun]
  simp only [Operation.apply, State.perform, State.withValue, left, right, dividend, divisor]
  rfl

/-- A program that begins with a division by zero. -/
theorem verdict_of_division :
    let m : Machine := new (.start (.padded [11, 32768, 7, 32769]))
      ⟨.ofBytes [], .new none, [], "save.json", ">>> ", .empty⟩ none
    m.status = .running ∧ m.Reached m.step.1 ∧ m.step.1.status = .faulted (.divisionByZero 0) ∧
      ∃ p, m.Reached p ∧ p.status = .running ∧ m.step.1 = p.step.1 ∧ m.step.1.Verdict p.loads := by
  intro m
  have held : ∀ k (below : k < 4), m.state.word? k = some ([11, 32768, 7, 32769] : List Word)[k] := by
    intro k below
    rw [State.word?, show m.state.pc.toNat + k = k from Nat.zero_add k]
    exact Memory.read?_padded_getElem (by decide) below
  have status := status_of_division (m := m) rfl rfl held
  have stopped : m.step.1.status ≠ .running := by
    simp [status]
  exact ⟨rfl, .step .start, status, verdict_of_reached rfl (.step .start) stopped⟩

end Machine

end WordMachine
