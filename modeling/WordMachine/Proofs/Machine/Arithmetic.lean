import Mathlib.Data.Nat.ModEq
import WordMachine.Proofs.Machine.Outcome

/-!
Arithmetic. What an instruction calculates from the values of its sources is exact modulo
2 ^ 15 (`Calculation.result`), whatever sixteen bits the registers hold; only the comparisons,
and the operands of `mod`, are taken as they are. A step gives this result unless it divides
by zero (`Machine.step_calculates`).
-/
namespace WordMachine

/-- What an instruction calculates: a word from the values of two sources, or of one. -/
inductive Calculation
  | binary (operation : BinaryOperation) (a b : Word)
  | not (a : Word)

namespace Calculation

variable {c d : Calculation}

/-- The number that a calculation comes to. -/
def result : Calculation → Nat
  | binary .eq a b => if a.toNat = b.toNat then 1 else 0
  | binary .gt a b => if a.toNat > b.toNat then 1 else 0
  | binary .add a b => (a.toNat + b.toNat) % 32768
  | binary .mult a b => (a.toNat * b.toNat) % 32768
  | binary .mod a b => (a.toNat % b.toNat) % 32768
  | binary .and a b => (a.toNat &&& b.toNat) % 32768
  | binary .or a b => (a.toNat ||| b.toNat) % 32768
  | not a => 32767 - a.toNat % 32768

/-- The word that the machine calculates, if any. -/
def word? : Calculation → Option Word
  | binary op a b => op.eval a b
  | not a => some (Word.complement a)

/-- The same calculation of operands that are congruent modulo 2 ^ 15, by an operation that
    does not look at their highest bits. -/
inductive Congruent : Calculation → Calculation → Prop
  | binary {op : BinaryOperation} {a b a' b' : Word} : op = .add ∨ op = .mult ∨ op = .and ∨ op = .or →
      a.toNat ≡ a'.toNat [MOD 32768] → b.toNat ≡ b'.toNat [MOD 32768] →
      Congruent (.binary op a b) (.binary op a' b')
  | not {a a' : Word} : a.toNat ≡ a'.toNat [MOD 32768] → Congruent (.not a) (.not a')

theorem toNat_complement (a : Word) : (Word.complement a).toNat = 32767 - a.toNat % 32768 := by
  have below : a.toNat < 65536 := a.toNat_lt
  rw [Word.complement, Word.toNat_reduce, UInt16.toNat_not]
  simp only [UInt16.size, Word.modulus]
  omega

theorem toNat_of_word? {value : Word} (calculated : c.word? = some value) : value.toNat = c.result := by
  cases c with
  | not a =>
    cases calculated
    exact toNat_complement a
  | binary op a b =>
    rw [word?] at calculated
    cases op with
    | eq =>
      cases calculated
      by_cases same : a = b
      · simp [result, same, Word.flag]
      · simp [result, same, Word.flag, UInt16.toNat_inj]
    | gt =>
      cases calculated
      by_cases above : b < a
      · simp [result, Word.flag, above, UInt16.lt_iff_toNat_lt.mp above]
      · simp [result, Word.flag, above, UInt16.le_iff_toNat_le.mp (UInt16.not_lt.mp above)]
    | add | mult =>
      cases calculated
      exact Word.toNat_reduce _
    | and =>
      cases calculated
      rw [Word.toNat_reduce, UInt16.toNat_and]
      rfl
    | or =>
      cases calculated
      rw [Word.toNat_reduce, UInt16.toNat_or]
      rfl
    | mod =>
      rw [BinaryOperation.eval] at calculated
      split at calculated
      · cases calculated
      · cases calculated
        exact Word.toNat_reduce _

theorem word?_eq_none_iff : c.word? = none ↔ ∃ a, c = .binary .mod a 0 := by
  cases c with
  | not a => simp [word?]
  | binary op a b => simp [word?, BinaryOperation.eval_eq_none_iff]

theorem result_lt (c : Calculation) : c.result < 32768 := by
  have reduced (n : Nat) : n % 32768 < 32768 := Nat.mod_lt n (by decide)
  cases c with
  | not a => exact Nat.lt_of_le_of_lt (Nat.sub_le _ _) (by decide)
  | binary op a b =>
    cases op with
    | eq | gt =>
      rw [result]
      split <;> decide
    | add | mult | mod | and | or => exact reduced _

theorem result_mod_lt (a : Word) {b : Word} (nonzero : b ≠ 0) : (binary .mod a b).result < b.toNat := by
  have positive : 0 < b.toNat := Nat.pos_of_ne_zero fun zero => nonzero (UInt16.toNat_inj.mp zero)
  exact Nat.lt_of_le_of_lt (Nat.mod_le _ _) (Nat.mod_lt _ positive)

/-- A remainder of fifteen bits is not reduced. -/
theorem result_mod_of_le {a b : Word} (small : a.toNat ≤ 32767) : (binary .mod a b).result = a.toNat % b.toNat :=
  Nat.mod_eq_of_lt (Nat.lt_of_le_of_lt (Nat.mod_le _ _) (Nat.lt_succ_of_le small))

theorem Congruent.result_eq (congruent : c.Congruent d) : c.result = d.result := by
  cases congruent with
  | not same => exact congrArg (32767 - ·) same
  | @binary op a b a' b' low left right =>
    rcases low with rfl | rfl | rfl | rfl
    · exact Nat.ModEq.add left right
    · exact Nat.ModEq.mul left right
    · have bits (x y : Nat) : (x &&& y) % 32768 = x % 32768 &&& y % 32768 := @Nat.and_mod_two_pow x y 15
      rw [result, result, bits, bits, left, right]
    · have bits (x y : Nat) : (x ||| y) % 32768 = x % 32768 ||| y % 32768 := @Nat.or_mod_two_pow x y 15
      rw [result, result, bits, bits, left, right]

theorem Congruent.exists_word? (congruent : c.Congruent d) : ∃ value, d.word? = some value := by
  refine Option.ne_none_iff_exists'.mp fun none => ?_
  obtain ⟨a, rfl⟩ := word?_eq_none_iff.mp none
  cases congruent with
  | binary low => simp at low

/-- To invert what was inverted gives the fifteen low bits back. -/
theorem result_not_not {a b : Word} (inverted : b.toNat = (not a).result) : (not b).result = a.toNat % 32768 := by
  rw [result] at inverted ⊢
  omega

end Calculation

namespace State

variable {s : State} {c : Calculation} {index : Fin 8}

/-- The instruction at the program counter makes a calculation of the values of its sources,
    and names a register for the result. -/
inductive Calculates (s : State) : Calculation → Fin 8 → Prop
  | binary {op : BinaryOperation} {destination left right a b : Word} {index : Fin 8} :
      s.word? 0 = some op.operation.code → s.word? 1 = some destination → s.word? 2 = some left →
      s.word? 3 = some right → destination.toNat = 32768 + index.val → s.registers.resolve? left = some a →
      s.registers.resolve? right = some b → Calculates s (.binary op a b) index
  | not {destination source a : Word} {index : Fin 8} :
      s.word? 0 = some Operation.not.code → s.word? 1 = some destination → s.word? 2 = some source →
      destination.toNat = 32768 + index.val → s.registers.resolve? source = some a → Calculates s (.not a) index

/-- What an instruction does that makes a calculation. -/
theorem Calculates.exists_perform (calculates : s.Calculates c index) : ∃ i, s.fetch = .ok i ∧
    (∀ source, i ≠ .out source) ∧ (∀ destination, i ≠ .input destination) ∧
    s.perform i = match c.word? with
      | some value =>
        ({ s with registers := s.registers.set index value index.isLt, pc := s.after i.width }, .running)
      | none => (s, .faulted (.divisionByZero s.pc)) := by
  cases calculates with
  | @binary op destination left right a b index code first second third named known_left known_right =>
    have fetched : s.fetch = .ok (.binary op destination left right) := by
      refine fetch_of_words ?_
      rintro (_ | _ | _ | _ | k) word at_k <;> cases at_k
      · cases op <;> exact code
      · exact first
      · exact second
      · exact third
    refine ⟨_, fetched, by rintro _ ⟨⟩, by rintro _ ⟨⟩, ?_⟩
    simp only [perform, withValue, known_left, known_right, Calculation.word?, Instruction.width_binary]
    cases op.eval a b with
    | none => rfl
    | some value =>
      simp only [assign, Operand.classify_of_register named]
  | @not destination source a index code first second named known =>
    have fetched : s.fetch = .ok (.not destination source) := by
      refine fetch_of_words ?_
      rintro (_ | _ | _ | k) word at_k <;> cases at_k
      · exact code
      · exact first
      · exact second
    refine ⟨_, fetched, by rintro _ ⟨⟩, by rintro _ ⟨⟩, ?_⟩
    simp only [perform, withValue, known, Calculation.word?, assign, Operand.classify_of_register named]
    rfl

end State

namespace Machine

variable {m n : Machine} {c d : Calculation} {index other : Fin 8} {value : Word}

theorem result_of_calculates (runs : m.status = .running) (calculates : m.state.Calculates c index)
    (calculated : c.word? = some value) : m.step.2 = .ok .running ∧
      m.step.1.state.registers = m.state.registers.set index value index.isLt := by
  obtain ⟨i, fetched, silent, deaf, performed⟩ := calculates.exists_perform
  rw [calculated] at performed
  rw [result_of_fetch runs fetched silent deaf, step_of_fetch runs fetched silent deaf, performed]
  exact ⟨rfl, rfl⟩

theorem result_of_division (runs : m.status = .running) (calculates : m.state.Calculates c index)
    (undefined : c.word? = none) : m.step.2 = .ok (.faulted (.divisionByZero m.state.pc)) := by
  obtain ⟨i, fetched, silent, deaf, performed⟩ := calculates.exists_perform
  rw [undefined] at performed
  rw [result_of_fetch runs fetched silent deaf, performed]

/-- What a step that succeeds makes of a calculation for a register. -/
structure Calculated (m : Machine) (c : Calculation) (index : Fin 8) : Prop where
  result : (m.step.1.state.registers.get index).toNat = c.result
  /-- All other registers keep their values. -/
  others : ∀ k, k ≠ index → m.step.1.state.registers.get k = m.state.registers.get k
  most : (m.step.1.state.registers.get index).toNat ≤ 32767
  remainder : ∀ a b, c = .binary .mod a b → (m.step.1.state.registers.get index).toNat < b.toNat ∧
    (a.toNat ≤ 32767 → b.toNat ≤ 32767 → (m.step.1.state.registers.get index).toNat = a.toNat % b.toNat)
  /-- Any machine that makes the same calculation of congruent operands has the same result. -/
  congruent : ∀ (n : Machine) (d : Calculation) (other : Fin 8), n.status = .running → n.state.Calculates d other →
    c.Congruent d → n.step.2 = .ok .running ∧ n.step.1.state.registers.get other = m.step.1.state.registers.get index
  /-- To invert the result of `not` once more gives the fifteen low bits back. -/
  inverse : ∀ a other, c = .not a → m.step.1.state.Calculates (.not (m.step.1.state.registers.get index)) other →
    ((m.after 2).state.registers.get other).toNat = a.toNat % 32768

/-- The word that is calculated is in its register after the step. -/
theorem register_of_calculates (runs : m.status = .running) (calculates : m.state.Calculates c index)
    (calculated : c.word? = some value) : (m.step.1.state.registers.get index).toNat = c.result := by
  rw [(result_of_calculates runs calculates calculated).2, ← Calculation.toNat_of_word? calculated]
  exact congrArg UInt16.toNat (Vector.getElem_set_self index.isLt)

theorem calculated_of_word? (runs : m.status = .running) (calculates : m.state.Calculates c index)
    (calculated : c.word? = some value) : m.Calculated c index := by
  obtain ⟨ended, written⟩ := result_of_calculates runs calculates calculated
  have exactly := register_of_calculates runs calculates calculated
  refine {
    result := exactly
    others := ?_
    most := by rw [exactly]; exact Nat.le_of_lt_succ c.result_lt
    remainder := ?_
    congruent := ?_
    inverse := ?_ }
  · intro k apart
    rw [written]
    exact Vector.getElem_set_ne index.isLt k.isLt fun same => apart (Fin.ext same.symm)
  · rintro a b rfl
    have nonzero : b ≠ 0 := by
      rintro rfl
      rw [Calculation.word?_eq_none_iff.mpr ⟨a, rfl⟩] at calculated
      cases calculated
    rw [exactly]
    exact ⟨Calculation.result_mod_lt a nonzero, fun small _ => Calculation.result_mod_of_le small⟩
  · intro n d other runs' calculates' congruent
    obtain ⟨value', calculated'⟩ := congruent.exists_word?
    refine ⟨(result_of_calculates runs' calculates' calculated').1, UInt16.toNat_inj.mp ?_⟩
    rw [register_of_calculates runs' calculates' calculated', exactly, congruent.result_eq]
  · rintro a other rfl again
    have running : m.step.1.status = .running := (execute_of_result runs ended).2.1
    rw [← Calculation.result_not_not exactly]
    exact register_of_calculates running again rfl

/-- A step that makes a calculation succeeds unless it divides by zero, and leaves the exact
    result in the register, whatever sixteen bits the sources have and even if the register is
    one of them. -/
theorem step_calculates (runs : m.status = .running) (calculates : m.state.Calculates c index) :
    (m.step.2 = .ok .running ↔ ∀ a, c ≠ .binary .mod a 0) ∧ (m.step.2 = .ok .running → m.Calculated c index) := by
  cases calculated : c.word? with
  | none =>
    have stopped := result_of_division runs calculates calculated
    obtain ⟨a, divides⟩ := Calculation.word?_eq_none_iff.mp calculated
    rw [stopped]
    exact ⟨⟨nofun, fun never => absurd divides (never a)⟩, nofun⟩
  | some value =>
    have ended := (result_of_calculates runs calculates calculated).1
    refine ⟨⟨fun _ a divides => ?_, fun _ => ended⟩, fun _ => calculated_of_word? runs calculates calculated⟩
    rw [Calculation.word?_eq_none_iff.mpr ⟨a, divides⟩] at calculated
    cases calculated

/-- The square of a word of sixteen ones, in the register that holds the word. -/
theorem step_calculates_square :
    let m : Machine := new ⟨0, Registers.zero.set 0 65535, [], .padded [10, 32768, 32768, 32768]⟩
      ⟨.ofBytes [], .new none, [], "save.json", ">>> ", .empty⟩ none
    m.status = .running ∧ m.state.Calculates (.binary .mult 65535 65535) 0 ∧ m.step.2 = .ok .running ∧
      m.Calculated (.binary .mult 65535 65535) 0 ∧ m.step.1.state.registers.get 0 = 1 := by
  intro m
  have memory : m.state.memory = .padded [10, 32768, 32768, 32768] := rfl
  have held {k : Nat} {word : Word} (at_k : ([10, 32768, 32768, 32768] : List Word)[k]? = some word) :
      m.state.word? k = some word :=
    State.word?_padded memory rfl (by decide) at_k
  have named : (32768 : Word).toNat = 32768 + (0 : Fin 8).val := rfl
  have resolved : m.state.registers.resolve? 32768 = some 65535 := Registers.resolve?_of_register _ named
  have calculates : m.state.Calculates (.binary .mult 65535 65535) 0 :=
    .binary (held rfl) (held rfl) (held rfl) (held rfl) named resolved resolved
  obtain ⟨succeeds, leaves⟩ := step_calculates (m := m) rfl calculates
  have ended := succeeds.mpr nofun
  exact ⟨rfl, calculates, ended, leaves ended, UInt16.toNat_inj.mp (leaves ended).result⟩

end Machine

end WordMachine
