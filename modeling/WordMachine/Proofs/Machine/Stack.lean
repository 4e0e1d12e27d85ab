import Mathlib.Data.List.DropRight
import WordMachine.Proofs.Machine.Loads

/-!
The stack over a run without loads. A step pushes one word, pops one or leaves the stack as
it is (`Machine.shift_step`), so what lies below a depth that a run does not go under is
kept (`Machine.rtake_after`). Hence what is pushed is what comes off when the stack is at
that depth again: a `ret` goes to the address behind its `call`, and a `pop` puts what was
pushed in its register (`Machine.stack_discipline`).
-/
namespace WordMachine

/-- The second stack is the first with at most one word pushed or popped. -/
inductive Shift : List Word → List Word → Prop
  | kept {stack : List Word} : Shift stack stack
  | pushed {stack : List Word} {word : Word} : Shift stack (word :: stack)
  | popped {stack : List Word} {word : Word} : Shift (word :: stack) stack

theorem rtake_cons {stack : List Word} {word : Word} {k : Nat} (within : k ≤ stack.length) :
    (word :: stack).rtake k = stack.rtake k := by
  rw [List.rtake, List.rtake, List.length_cons, Nat.succ_sub within, List.drop_succ_cons]

/-- What both stacks have room for at the bottom is the same. -/
theorem Shift.rtake {before after : List Word} (shift : Shift before after) {k : Nat} (deep : k ≤ before.length)
    (still : k ≤ after.length) : after.rtake k = before.rtake k := by
  cases shift with
  | kept => rfl
  | pushed => exact rtake_cons deep
  | popped => exact (rtake_cons still).symm

/-- An instruction pushes one word, pops one or leaves the stack as it is. -/
theorem State.Outcome.shift {s t : State} {i : Instruction} {status : Status} (outcome : s.Outcome i (t, status)) :
    Shift s.stack t.stack := by
  cases outcome with
  | returns held | pops held _ | drops held _ =>
    rw [held]
    exact .popped
  | pushes | calls => exact .pushed
  | halts | ends | assigns | stores | jumps | passes | faults => exact .kept

namespace Machine

variable {m : Machine}

/-- A step that loads nothing pushes one word, pops one or leaves the stack as it is. -/
theorem shift_step (free : m.loads = []) : Shift m.state.stack m.step.1.state.stack := by
  cases final : m.status.isFinal with
  | true =>
    rw [step_of_isFinal final]
    exact .kept
  | false =>
    have runs := Status.eq_running final
    have asked {delivery : Delivery} {console : Console} {t : State} (waits : m.state.atInput = true)
        (came : m.console.nextInput m.state = (delivery, console, t)) : t.stack = m.state.stack := by
      rw [loads_of_waiting runs waits] at free
      exact (Console.touched_of_loads_eq_nil came free).stack
    refine step_cases (P := fun t _ => Shift m.state.stack t.stack) runs ?_ ?_ ?_ ?_ ?_ ?_
    · intro fault _
      exact .kept
    · intro i t status _ outcome
      exact outcome.shift
    · intro source _
      exact .kept
    · intro error console t waits came
      rw [asked waits came]
      exact .kept
    · intro console t waits came
      rw [asked waits came]
      exact .kept
    · intro word console t u status waits came reception
      rw [reception.stack, asked waits came]
      exact .kept

/-- What lies below a depth that a run without loads does not go under is kept. -/
theorem rtake_after {i j k : Nat} (least : i ≤ j) (free : ∀ l, i ≤ l → l < j → (m.after l).loads = [])
    (deep : ∀ l, i ≤ l → l ≤ j → k ≤ (m.after l).state.stack.length) :
    (m.after j).state.stack.rtake k = (m.after i).state.stack.rtake k := by
  induction j, least using Nat.le_induction with
  | base => rfl
  | succ j least ih =>
    have shift := shift_step (free j least (Nat.lt_succ_self j))
    have step := shift.rtake (deep j least (Nat.le_succ j)) (deep (j + 1) (Nat.le_succ_of_le least) (Nat.le_refl _))
    have before := ih (fun l from_i below => free l from_i (Nat.lt_succ_of_lt below))
      (fun l from_i most => deep l from_i (Nat.le_succ_of_le most))
    exact step.trans before

/-- From one step on the stack is deeper than before that step, and when another begins it
    is deeper by one, in a run without loads in between. -/
structure Encloses (m : Machine) (i j : Nat) : Prop where
  later : i < j
  free : ∀ l, i ≤ l → l < j → (m.after l).loads = []
  above : ∀ l, i < l → l ≤ j → (m.after i).state.stack.length < (m.after l).state.stack.length
  meets : (m.after j).state.stack.length = (m.after i).state.stack.length + 1
  runs : (m.after j).status = .running

/-- The word that is pushed by the first step is on top when the other begins. -/
theorem Encloses.stack {i j : Nat} (encloses : m.Encloses i j) {word : Word}
    (pushed : (m.after (i + 1)).state.stack = word :: (m.after i).state.stack) :
    (m.after j).state.stack = word :: (m.after i).state.stack := by
  have kept := rtake_after (k := (m.after i).state.stack.length + 1) encloses.later
    (fun l from_i below => encloses.free l (Nat.le_of_succ_le from_i) below)
    (fun l from_i most => encloses.above l from_i most)
  rw [pushed, List.rtake, List.rtake, encloses.meets, List.length_cons, Nat.sub_self] at kept
  exact kept

theorem Encloses.begins {i j : Nat} (encloses : m.Encloses i j) : (m.after i).status = .running := by
  refine Status.eq_running (Bool.eq_false_iff.mpr fun final => ?_)
  have deeper := encloses.above (i + 1) (Nat.lt_succ_self i) encloses.later
  rw [after, step_of_isFinal final] at deeper
  exact Nat.lt_irrefl _ deeper

/-- A `call` that makes the stack deeper has pushed the address behind it. -/
theorem pushed_of_call (runs : m.status = .running) (code : m.state.word? 0 = some 17)
    (deeper : m.state.stack.length < m.step.1.state.stack.length) :
    m.step.1.state.stack = m.state.after 2 :: m.state.stack ∧ (m.state.after 2).toNat = m.state.pc.toNat + 2 := by
  cases fetched : m.state.fetch with
  | error fault =>
    rw [step_of_unfetched runs fetched] at deeper
    exact absurd deeper (Nat.lt_irrefl _)
  | ok i =>
    have calls : i.operation = .call := State.operation_of_fetch fetched code
    have room : m.state.pc.toNat + 2 ≤ 32768 := by
      have fits := (State.fetch_eq_ok fetched).2
      rw [Instruction.width, calls] at fits
      exact fits
    cases i with
    | call operand =>
      refine ⟨?_, ?_⟩
      · have source : m.state.word? 1 = some operand := State.word?_operand fetched rfl
        cases resolved : m.state.registers.resolve? operand with
        | some target =>
          rw [step_of_call runs code source resolved]
          rfl
        | none =>
          rw [step_of_fetch runs fetched (by simp) (by simp)] at deeper
          simp only [State.perform, State.withValue, resolved] at deeper
          exact absurd deeper (Nat.lt_irrefl _)
      · rw [State.after, UInt16.toNat_add]
        exact Nat.mod_eq_of_lt (Nat.lt_of_le_of_lt room (by decide))
    | binary op => cases op <;> cases calls
    | _ => cases calls

/-- What a run without loads does to the stack. What lies below a depth that it does not go
    under is kept. So a `ret` goes to the address behind the `call` that it belongs to, and a
    `pop` puts in its register what the `push` pushed that it belongs to, whatever is
    done between them, and the stack is as it was before. -/
theorem stack_discipline (m : Machine) :
    (∀ i j k, i ≤ j → (∀ l, i ≤ l → l < j → (m.after l).loads = []) →
      (∀ l, i ≤ l → l ≤ j → k ≤ (m.after l).state.stack.length) →
      (m.after j).state.stack.rtake k = (m.after i).state.stack.rtake k) ∧
    (∀ i j, m.Encloses i j → (m.after i).state.word? 0 = some 17 → (m.after j).state.word? 0 = some 18 →
      (m.after (j + 1)).status = .running ∧
        (m.after (j + 1)).state.pc.toNat = (m.after i).state.pc.toNat + 2 ∧
        (m.after (j + 1)).state.stack = (m.after i).state.stack) ∧
    (∀ i j source value destination index, m.Encloses i j →
      (m.after i).state.word? 0 = some 2 → (m.after i).state.word? 1 = some source →
      (m.after i).state.registers.resolve? source = some value →
      (m.after j).state.word? 0 = some 3 → (m.after j).state.word? 1 = some destination →
      destination.toNat = 32768 + Fin.val (n := 8) index →
      (m.after (j + 1)).status = .running ∧
        (m.after (j + 1)).state.registers = (m.after j).state.registers.set index value index.isLt ∧
        (m.after (j + 1)).state.stack = (m.after i).state.stack) := by
  refine ⟨fun i j k least free deep => rtake_after least free deep, ?_, ?_⟩
  · intro i j encloses calls returns
    have deeper := encloses.above (i + 1) (Nat.lt_succ_self i) encloses.later
    obtain ⟨pushed, behind⟩ := pushed_of_call encloses.begins calls deeper
    rw [after, step_of_ret encloses.runs returns (encloses.stack pushed)]
    exact ⟨rfl, behind, rfl⟩
  · intro i j source value destination index encloses pushes from_source resolved pops to_destination named
    have pushed := step_of_push encloses.begins pushes from_source resolved
    have on_top : (m.after (i + 1)).state.stack = value :: (m.after i).state.stack := by
      rw [after, pushed]
      rfl
    have held := encloses.stack on_top
    rw [after, step_of_pop encloses.runs pops to_destination named held]
    exact ⟨rfl, rfl, rfl⟩

/-- A `call` to a `push`, a `pop` and a `ret`: the machine after each of the first three steps. -/
private theorem after_call_push_pop {memory : Memory} (console : Console)
    (held : ∀ k (below : k < 8), memory.read? k = some ([17, 3, 0, 2, 7, 3, 32768, 18] : List Word)[k]) :
    let m : Machine := new (.start memory) console none
    m.after 1 = ⟨⟨3, .zero, [2], memory⟩, console, .running, 1, none⟩ ∧
      m.after 2 = ⟨⟨5, .zero, [7, 2], memory⟩, console, .running, 2, none⟩ ∧
      m.after 3 = ⟨⟨7, Registers.zero.set 0 7 (by decide), [2], memory⟩, console, .running, 3, none⟩ := by
  intro m
  let called : Machine := ⟨⟨3, .zero, [2], memory⟩, console, .running, 1, none⟩
  let pushed : Machine := ⟨⟨5, .zero, [7, 2], memory⟩, console, .running, 2, none⟩
  have first : m.after 1 = called :=
    step_of_call (m := m) rfl (held 0 (by decide)) (held 1 (by decide)) (Registers.resolve?_of_lt _ (by decide))
  have second : called.step.1 = pushed :=
    step_of_push (m := called) rfl (held 3 (by decide)) (held 4 (by decide)) (Registers.resolve?_of_lt _ (by decide))
  have named : (32768 : Word).toNat = 32768 + (0 : Fin 8).val := rfl
  have third := step_of_pop (m := pushed) rfl (held 5 (by decide)) (held 6 (by decide)) named rfl
  refine ⟨first, ?_, ?_⟩
  · rw [after, first]
    exact second
  · rw [after, after, first, second]
    exact third

/-- A `call` of a part of the program that pushes a word and pops it before it returns. -/
theorem stack_discipline_nested :
    let m : Machine := new (.start (.padded [17, 3, 0, 2, 7, 3, 32768, 18]))
      ⟨.ofBytes [], .new none, [], "save.json", ">>> ", .empty⟩ none
    m.Encloses 0 3 ∧ m.Encloses 1 2 ∧ (m.after 3).state.stack.rtake 1 = (m.after 1).state.stack.rtake 1 ∧
      (m.after 4).state.pc.toNat = 2 ∧ (m.after 4).state.stack = [] ∧
      (m.after 3).state.registers = (m.after 2).state.registers.set 0 7 (by decide) ∧ (m.after 3).state.stack = [2] := by
  intro m
  have held : ∀ k (below : k < 8), m.state.memory.read? k = some ([17, 3, 0, 2, 7, 3, 32768, 18] : List Word)[k] := by
    intro k below
    exact Memory.read?_padded_getElem (by decide) below
  obtain ⟨first, second, third⟩ := after_call_push_pop m.console held
  have first : m.after 1 = _ := first
  have second : m.after 2 = _ := second
  have third : m.after 3 = _ := third
  have silent : ∀ l < 3, (m.after l).loads = [] := by
    intro l below
    obtain rfl | rfl | rfl : l = 0 ∨ l = 1 ∨ l = 2 := by omega
    · exact loads_of_word? (held 0 (by decide)) (by decide)
    · rw [first]
      exact loads_of_word? (held 3 (by decide)) (by decide)
    · rw [second]
      exact loads_of_word? (held 5 (by decide)) (by decide)
  have outer : m.Encloses 0 3 := by
    refine ⟨by decide, fun l _ below => silent l below, ?_, ?_, ?_⟩
    · intro l low most
      obtain rfl | rfl | rfl : l = 1 ∨ l = 2 ∨ l = 3 := by omega
      · rw [first]; exact Nat.one_pos
      · rw [second]; exact Nat.two_pos
      · rw [third]; exact Nat.one_pos
    · rw [third]; rfl
    · rw [third]
  have inner : m.Encloses 1 2 := by
    refine ⟨by decide, fun l _ below => silent l (Nat.lt_succ_of_lt below), ?_, ?_, ?_⟩
    · intro l low most
      obtain rfl : l = 2 := by omega
      rw [first, second]
      exact Nat.lt_succ_self 1
    · rw [first, second]; rfl
    · rw [second]
  have calls : (m.after 0).state.word? 0 = some 17 := held 0 (by decide)
  have rets : (m.after 3).state.word? 0 = some 18 := by
    rw [third]
    exact held 7 (by decide)
  have pushes : (m.after 1).state.word? 0 = some 2 ∧ (m.after 1).state.word? 1 = some 7 := by
    rw [first]
    exact ⟨held 3 (by decide), held 4 (by decide)⟩
  have pops : (m.after 2).state.word? 0 = some 3 ∧ (m.after 2).state.word? 1 = some 32768 := by
    rw [second]
    exact ⟨held 5 (by decide), held 6 (by decide)⟩
  obtain ⟨bottom, call_ret, push_pop⟩ := stack_discipline m
  obtain ⟨-, place, empty⟩ := call_ret 0 3 outer calls rets
  obtain ⟨-, stored, left⟩ := push_pop 1 2 7 7 32768 0 inner pushes.1 pushes.2
    (Registers.resolve?_of_lt _ (by decide)) pops.1 pops.2 rfl
  have kept := bottom 1 3 1 (by decide) (fun l _ below => silent l below)
    (fun l low most => outer.above l (Nat.lt_of_lt_of_le Nat.zero_lt_one low) most)
  simp only [Nat.reduceAdd] at place empty stored left
  refine ⟨outer, inner, kept, place, empty, stored, ?_⟩
  rw [left, first]

end Machine

end WordMachine
