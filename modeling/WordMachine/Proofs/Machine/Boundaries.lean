import WordMachine.Proofs.Listing.Lines
import WordMachine.Proofs.Machine.Loads
import WordMachine.Proofs.Memory.Image

/-!
The machine and the listing of its memory. Where a line stands, the machine fetches what the
line shows (`State.fetched_of_line`): a data line is an unknown opcode, a line that is cut
short has an operand past the last cell, and any other line is the instruction itself. A
step that does not transfer control and loads nothing goes on to the address behind its
instruction (`Machine.pc_of_passing`), which is where the next line begins. So both take the
same words for instructions (`Machine.boundaries_agree`).
-/
namespace WordMachine

open Listing

namespace State

variable {s t : State} {i : Instruction} {status : Status}

/-! ### What is fetched at a line -/

/-- What is fetched where a line with the given content stands. -/
inductive Fetched (s : State) : Content → Except Fault Instruction → Prop
  | data {word : Word} : Fetched s (.data word) (.error (.unknownOpcode s.pc word))
  | cut {op : Operation} {operands : List Word} : operands.length < op.arity →
      Fetched s (.instruction op operands) (.error (.addressOutOfRange s.pc Memory.size))
  | whole {i : Instruction} : Fetched s (.instruction i.operation i.operands) (.ok i)

/-- Operands that are cut out of a memory are the words there. -/
theorem toList_of_slice? {memory : Memory} {before rest : List Word} (split : memory.words = before ++ rest)
    {length : Nat} {operands : Vector Word length} (sliced : memory.slice? before.length length = some operands) :
    operands.toList = rest.take length := by
  have room : ¬ Memory.size < before.length + length := by
    intro beyond
    rw [Memory.slice?_eq_none_iff.mpr beyond] at sliced
    cases sliced
  have all : before.length + rest.length = Memory.size := by
    rw [← List.length_append, ← split, Memory.length_words]
  refine List.ext_getElem ?_ ?_
  · rw [Vector.length_toList, List.length_take]
    omega
  · intro k below _
    rw [Vector.length_toList] at below
    have read := Memory.read?_of_slice? sliced below
    rw [Memory.read?_eq_getElem?, split, List.getElem?_append_right (Nat.le_add_right _ _), Nat.add_sub_cancel_left,
      List.getElem?_eq_getElem (by omega)] at read
    rw [List.getElem_take, Vector.getElem_toList]
    exact (Option.some.inj read).symm

/-- Where a line stands, what is fetched is what it shows. -/
theorem fetched_of_line {k : Nat} {line : Line} (at_k : (disassemble s.memory.words)[k]? = some line)
    (here : s.pc.toNat = line.address) : s.Fetched line.content s.fetch := by
  obtain ⟨before, word, rest, split, rfl, -⟩ := exists_of_getElem? at_k
  rw [address_lineAt, Nat.zero_add] at here
  have held : s.memory.read? s.pc.toNat = some word := by
    rw [Memory.read?_eq_getElem?, split, here, List.getElem?_append_right (Nat.le_refl _), Nat.sub_self]
    rfl
  have all : before.length + 1 + rest.length = Memory.size := by
    rw [← Memory.length_words s.memory, split, List.length_append, List.length_cons]
    omega
  unfold lineAt fetch
  cases named : Operation.ofWord? word with
  | none =>
    simp only [held, named]
    exact .data
  | some op =>
    simp only [held, named]
    cases cut : s.memory.slice? (s.pc.toNat + 1) op.arity with
    | none =>
      have beyond := Memory.slice?_eq_none_iff.mp cut
      refine .cut ?_
      rw [List.length_take]
      omega
    | some operands =>
      have behind : s.memory.words = (before ++ [word]) ++ rest := by
        rw [split, List.append_assoc]
        rfl
      have place : s.pc.toNat + 1 = (before ++ [word]).length := by
        rw [here, List.length_append, List.length_singleton]
      rw [place] at cut
      have shown := @Fetched.whole s (op.apply operands)
      rwa [Operation.operation_apply, Operation.operands_apply, toList_of_slice? behind cut] at shown

/-! ### Where an instruction goes on -/

/-- The instruction hands control to a place that need not be the one behind it. -/
inductive Transfers (s : State) : Instruction → Prop
  | jumps {i : Instruction} {operand : Word} : s.Jump i operand → Transfers s i
  | calls {operand : Word} : Transfers s (.call operand)
  | returns : Transfers s .ret

theorem Outcome.pc (outcome : s.Outcome i (t, .running)) (stays : ¬ s.Transfers i) : t.pc = s.after i.width := by
  cases outcome with
  | assigns | pops | stores | pushes | passes => rfl
  | jumps jump => exact absurd (.jumps jump) stays
  | calls => exact absurd .calls stays
  | returns => exact absurd .returns stays

/-- The opcode of an instruction that is fetched is known. -/
theorem Outcome.known {pc word : Word} (outcome : s.Outcome i (t, .faulted (.unknownOpcode pc word))) : False := by
  cases outcome with
  | faults refusal => cases refusal

theorem Reception.known {given pc word : Word}
    (reception : s.Reception given (t, .faulted (.unknownOpcode pc word))) : False := by
  cases reception

end State

namespace Machine

variable {m : Machine}

/-- The instruction of the next step hands control to a place that need not be the one
    behind it. -/
def Transfers (m : Machine) : Prop := ∃ i, m.state.fetch = .ok i ∧ m.state.Transfers i

/-- A step with an instruction that can be fetched does not end at an unknown opcode. -/
theorem result_ne_unknownOpcode (runs : m.status = .running) {i : Instruction} (fetched : m.state.fetch = .ok i)
    (pc word : Word) : m.step.2 ≠ .ok (.faulted (.unknownOpcode pc word)) := by
  intro ended
  cases waits : m.state.atInput with
  | true =>
    obtain ⟨done, -⟩ := execute_of_result runs ended
    rcases reception_of_execute waits done with ⟨closed, -⟩ | ⟨_, _, -, reception⟩
    · cases closed
    · exact reception.known
  | false => exact (outcome_of_result runs fetched waits ended).known

/-- A step that leaves the machine running without a transfer of control or a load goes on to
    the address behind its instruction. -/
theorem pc_of_passing (runs : m.status = .running) {i : Instruction} (fetched : m.state.fetch = .ok i)
    (ended : m.step.2 = .ok .running) (stays : ¬ m.Transfers) (free : m.loads = []) :
    m.step.1.state.pc.toNat = m.state.pc.toNat + i.width := by
  have behind : m.step.1.state.pc = m.state.after i.width := by
    cases waits : m.state.atInput with
    | true =>
      obtain ⟨done, -⟩ := execute_of_result runs ended
      obtain ⟨destination, asks⟩ := State.atInput_iff.mp waits
      obtain rfl : i = .input destination := Except.ok.inj (fetched.symm.trans asks)
      rcases reception_of_execute waits done with ⟨closed, -⟩ | ⟨_, u, asked, reception⟩
      · cases closed
      · rw [loads_of_waiting runs waits] at free
        rw [reception.pc, State.after, (Console.touched_of_loads_eq_nil asked free).pc]
        rfl
    | false => exact (outcome_of_result runs fetched waits ended).pc fun transfers => stays ⟨i, fetched, transfers⟩
  rw [behind, State.toNat_after (State.fetch_eq_ok fetched).2]

/-- The next step leaves the machine running, transfers no control, leaves memory as it is
    and loads nothing. -/
structure Passes (m : Machine) : Prop where
  ended : m.step.2 = .ok .running
  stays : ¬ m.Transfers
  keeps : m.step.1.state.memory = m.state.memory
  free : m.loads = []

/-- A step from where a line stands leads to where the next one stands. -/
theorem pc_of_line (runs : m.status = .running) {k : Nat} {line : Line}
    (at_k : (disassemble m.state.memory.words)[k]? = some line) (here : m.state.pc.toNat = line.address)
    (ended : m.step.2 = .ok .running) (stays : ¬ m.Transfers) (free : m.loads = []) :
    m.step.1.state.pc.toNat = line.address + line.width := by
  have shown := State.fetched_of_line at_k here
  generalize content : line.content = shows at shown
  generalize came : m.state.fetch = fetched at shown
  cases shown with
  | data | cut =>
    rw [result_of_unfetched runs came] at ended
    cases ended
  | @whole i =>
    rw [pc_of_passing runs came ended stays free, here, Line.width, content, Content.words, List.length_cons,
      Instruction.length_operands, Instruction.width, Nat.add_comm 1]

/-- A run that passes on from step to step goes from each line to the next. -/
theorem pc_after_of_passes (runs : m.status = .running) (start : m.state.pc = 0) {n : Nat}
    (passes : ∀ k < n, (m.after k).Passes) :
    n ≤ (disassemble m.state.memory.words).length ∧ (m.after n).status = .running ∧
      (m.after n).state.memory = m.state.memory ∧
      (m.after n).state.pc.toNat = boundary m.state.memory.words n := by
  induction n with
  | zero => exact ⟨Nat.zero_le _, runs, rfl, by rw [boundary_zero, after, start]; rfl⟩
  | succ n ih =>
    obtain ⟨within, running, same, here⟩ := ih fun k below => passes k (Nat.lt_succ_of_lt below)
    have last := passes n (Nat.lt_succ_self n)
    cases at_n : (disassemble m.state.memory.words)[n]? with
    | none =>
      -- Behind the last line there is no cell from which an instruction could be fetched.
      have beyond : m.state.memory.read? (m.after n).state.pc.toNat = none := by
        rw [Memory.read?_eq_none_iff, here, boundary, at_n, ← Memory.length_words m.state.memory]
        exact Nat.le_refl _
      have failed : (m.after n).state.fetch
          = .error (.addressOutOfRange (m.after n).state.pc (m.after n).state.pc.toNat) := by
        rw [State.fetch, same, beyond]
      have ended := result_of_unfetched running failed
      rw [last.ended] at ended
      cases ended
    | some line =>
      have shown : (disassemble (m.after n).state.memory.words)[n]? = some line := by rw [same, at_n]
      rw [boundary_of_getElem? at_n] at here
      obtain ⟨inside, -⟩ := List.getElem?_eq_some_iff.mp at_n
      refine ⟨inside, (execute_of_result running last.ended).2.1, last.keeps.trans same, ?_⟩
      rw [boundary_succ at_n]
      exact pc_of_line running shown here last.ended last.stays last.free

/-- The listing of a memory and the machine agree on where instructions begin. At a data line,
    and nowhere else, a step ends at an unknown opcode; at a line that is cut short it ends
    past the last cell; and any other step that goes on without a transfer of control or a
    load leads to the next line, or past the last cell after the last line. So a run from
    the first cell that transfers no control, leaves memory as it is and loads nothing goes
    through the lines one after the other. -/
theorem boundaries_agree (runs : m.status = .running) :
    (∀ k line, (disassemble m.state.memory.words)[k]? = some line → m.state.pc.toNat = line.address →
      (∀ word, line.content = .data word ↔ m.step.2 = .ok (.faulted (.unknownOpcode m.state.pc word))) ∧
      (∀ op operands, line.content = .instruction op operands → operands.length < op.arity →
        m.step.2 = .ok (.faulted (.addressOutOfRange m.state.pc 32768))) ∧
      (m.step.2 = .ok .running → ¬ m.Transfers → m.loads = [] →
        m.step.1.state.pc.toNat = line.address + line.width ∧
        m.step.1.state.pc.toNat = (((disassemble m.state.memory.words)[k + 1]?).map Line.address).getD 32768)) ∧
    (∀ n, m.state.pc = 0 → (∀ k < n, (m.after k).Passes) →
      n ≤ (disassemble m.state.memory.words).length ∧
      ∀ k ≤ n, (m.after k).state.pc.toNat = (((disassemble m.state.memory.words)[k]?).map Line.address).getD 32768) := by
  have cells : ∀ k, boundary m.state.memory.words k
      = (((disassemble m.state.memory.words)[k]?).map Line.address).getD 32768 := by
    intro k
    rw [boundary, Memory.length_words, Memory.size]
  refine ⟨?_, ?_⟩
  · intro k line at_k here
    have shown := State.fetched_of_line at_k here
    refine ⟨?_, ?_, ?_⟩
    · intro word
      generalize line.content = shows at shown
      generalize came : m.state.fetch = fetched at shown
      cases shown with
      | data => simp [result_of_unfetched runs came]
      | cut => simp [result_of_unfetched runs came]
      | whole => simp [result_ne_unknownOpcode runs came]
    · intro op operands content short
      rw [content] at shown
      generalize came : m.state.fetch = fetched at shown
      cases shown with
      | cut => exact result_of_unfetched runs came
      | whole =>
        rw [Instruction.length_operands] at short
        exact absurd short (Nat.lt_irrefl _)
    · intro ended stays free
      have next := pc_of_line runs at_k here ended stays free
      exact ⟨next, by rw [← cells, boundary_succ at_k, next]⟩
  · intro n start passes
    refine ⟨(pc_after_of_passes runs start passes).1, ?_⟩
    intro k most
    rw [← cells]
    exact (pc_after_of_passes runs start fun l below => passes l (Nat.lt_of_lt_of_le below most)).2.2.2

private theorem passes_of_fetch (runs : m.status = .running) {i : Instruction} (fetched : m.state.fetch = .ok i)
    (silent : ∀ source, i ≠ .out source) (deaf : ∀ destination, i ≠ .input destination) {t : State}
    (done : m.state.perform i = (t, .running)) (keeps : t.memory = m.state.memory) (stays : ¬ m.state.Transfers i) :
    m.Passes ∧ m.step.1 = ⟨t, m.console, .running, m.steps + 1, m.maxSteps⟩ := by
  have waits : m.state.atInput = false := by
    rw [Bool.eq_false_iff, Ne, State.atInput_iff]
    rintro ⟨destination, asks⟩
    exact deaf destination (Except.ok.inj (fetched.symm.trans asks))
  have stepped : m.step.1 = ⟨t, m.console, .running, m.steps + 1, m.maxSteps⟩ := by
    rw [step_of_fetch runs fetched silent deaf, done]
    rfl
  refine ⟨⟨?_, ?_, by rw [stepped]; exact keeps, ?_⟩, stepped⟩
  · rw [result_of_fetch runs fetched silent deaf, done]
  · rintro ⟨j, again, transfers⟩
    obtain rfl : i = j := Except.ok.inj (fetched.symm.trans again)
    exact stays transfers
  · rw [loads, if_neg]
    rintro ⟨-, asks⟩
    rw [waits] at asks
    cases asks

/-- A `noop` and an `add`: the machine after each of the first two steps. -/
private theorem passes_noop_add {memory : Memory} (console : Console)
    (held : ∀ k (below : k < 6), memory.read? k = some ([21, 9, 32768, 4, 5, 40000] : List Word)[k]) :
    let m : Machine := new (.start memory) console none
    (m.Passes ∧ m.after 1 = ⟨⟨1, .zero, [], memory⟩, console, .running, 1, none⟩) ∧
      (m.after 1).Passes ∧
      m.after 2 = ⟨⟨5, Registers.zero.set 0 9 (by decide), [], memory⟩, console, .running, 2, none⟩ := by
  intro m
  let second : Machine := ⟨⟨1, .zero, [], memory⟩, console, .running, 1, none⟩
  obtain ⟨_, noop, -⟩ :=
    @State.exists_fetch_apply m.state .noop (held 0 (by decide)) (show 0 + 0 < 32768 by decide)
  have first := passes_of_fetch (m := m) (t := second.state) rfl noop (by simp [Operation.apply])
    (by simp [Operation.apply]) rfl rfl (by rintro (jump | _ | _); cases jump)
  obtain ⟨operands, add, lies⟩ :=
    @State.exists_fetch_apply second.state .add (held 1 (by decide)) (show 1 + 3 < 32768 by decide)
  have target : operands[0] = 32768 := Option.some.inj ((lies 0 (by decide)).symm.trans (held 2 (by decide)))
  have left : operands[1] = 4 := Option.some.inj ((lies 1 (by decide)).symm.trans (held 3 (by decide)))
  have right : operands[2] = 5 := Option.some.inj ((lies 2 (by decide)).symm.trans (held 4 (by decide)))
  have named : (32768 : Word).toNat = 32768 + (0 : Fin 8).val := rfl
  have done : second.state.perform (Operation.add.apply operands)
      = (⟨5, Registers.zero.set 0 9 (by decide), [], memory⟩, .running) := by
    simp only [Operation.apply, State.perform, State.withValue, State.assign, target, left, right,
      Registers.resolve?_of_lt _ (show (4 : Word).toNat < 32768 by decide),
      Registers.resolve?_of_lt _ (show (5 : Word).toNat < 32768 by decide), Operand.classify_of_register named]
    rfl
  have next := passes_of_fetch (m := second) rfl add (by simp [Operation.apply]) (by simp [Operation.apply]) done rfl
    (by rintro (jump | _ | _); cases jump)
  have at_one : m.after 1 = second := first.2
  refine ⟨first, by rw [at_one]; exact next.1, ?_⟩
  rw [after, at_one]
  exact next.2

/-- A program that does nothing, adds two numbers and comes to a word that is no opcode. -/
theorem boundaries_agree_noop_add :
    let m : Machine := new (.start (.padded [21, 9, 32768, 4, 5, 40000]))
      ⟨.ofBytes [], .new none, [], "save.json", ">>> ", .empty⟩ none
    m.status = .running ∧ (∀ k < 2, (m.after k).Passes) ∧
      (disassemble m.state.memory.words)[1]? = some ⟨1, .instruction .add [32768, 4, 5]⟩ ∧
      (disassemble m.state.memory.words)[2]? = some ⟨5, .data 40000⟩ ∧
      (m.after 1).state.pc.toNat = 1 ∧ (m.after 2).state.pc.toNat = 5 ∧
      (m.after 2).step.2 = .ok (.faulted (.unknownOpcode 5 40000)) := by
  intro m
  have held : ∀ k (below : k < 6), m.state.memory.read? k = some ([21, 9, 32768, 4, 5, 40000] : List Word)[k] := by
    intro k below
    exact Memory.read?_padded_getElem (by decide) below
  obtain ⟨⟨first, -⟩, second, at_two⟩ := passes_noop_add m.console held
  have at_two : m.after 2 = _ := at_two
  have passes : ∀ k < 2, (m.after k).Passes := by
    intro k below
    obtain rfl | rfl : k = 0 ∨ k = 1 := by omega
    · exact first
    · exact second
  -- The first three lines of the listing.
  obtain ⟨rest, image⟩ : ∃ rest, m.state.memory.words = [21, 9, 32768, 4, 5, 40000] ++ rest :=
    ⟨_, Memory.words_padded (by decide)⟩
  have listing : disassemble m.state.memory.words = ⟨0, .instruction .noop []⟩ ::
      ⟨1, .instruction .add [32768, 4, 5]⟩ :: ⟨5, .data 40000⟩ :: lines 6 rest := by
    have words : m.state.memory.words = 21 :: 9 :: 32768 :: 4 :: 5 :: 40000 :: rest := image
    rw [disassemble, words, lines_cons]
    refine congrArg (List.cons _) ?_
    rw [show lines (0 + _) _ = lines 1 (9 :: 32768 :: 4 :: 5 :: 40000 :: rest) from rfl, lines_cons]
    refine congrArg (List.cons _) ?_
    rw [show lines (1 + _) _ = lines 5 (40000 :: rest) from rfl, lines_cons]
    rfl
  have run := (boundaries_agree (m := m) rfl).2 2 rfl passes
  have third : (disassemble m.state.memory.words)[2]? = some ⟨5, .data 40000⟩ := by rw [listing]; rfl
  have here : (m.after 2).state.pc.toNat = 5 := by rw [run.2 2 (Nat.le_refl 2), third]; rfl
  have there : (m.after 1).state.pc.toNat = 1 := by rw [run.2 1 (by decide), listing]; rfl
  have memory : (m.after 2).state.memory = m.state.memory := by rw [at_two]
  have running : (m.after 2).status = .running := by rw [at_two]
  have at_data := (boundaries_agree running).1 2 _ (by rw [memory]; exact third) here
  refine ⟨rfl, passes, by rw [listing]; rfl, third, there, here, ?_⟩
  have ended := (at_data.1 40000).mp rfl
  rwa [show (m.after 2).state.pc = 5 by rw [at_two]] at ended

end Machine

end WordMachine
