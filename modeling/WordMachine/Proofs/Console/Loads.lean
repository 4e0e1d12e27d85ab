import WordMachine.Proofs.Console.Turn
import WordMachine.Proofs.Slot.RoundTrip

/-!
Loads within a request for input. `Console.loads` lists the states that a request loads, in
their order. A request leaves the last of them, or the state that it began with if it loads
none, with perhaps another word in register 7 (`Console.nextInput_touched`).
-/
namespace WordMachine

/-- The second state is the first, with perhaps another word of fifteen bits in register 7. -/
inductive State.Touched (s : State) : State → Prop
  | same : Touched s s
  | set {value : Word} : value.toNat < 32768 →
      Touched s { s with registers := s.registers.set 7 value (by decide) }

namespace State.Touched

variable {s t u : State}

theorem trans (first : s.Touched t) (second : t.Touched u) : s.Touched u := by
  cases second with
  | same => exact first
  | set narrow =>
    cases first with
    | same => exact .set narrow
    | set _ =>
      simp only [Vector.set_set]
      exact .set narrow

theorem pc (touched : s.Touched t) : t.pc = s.pc := by cases touched <;> rfl

theorem stack (touched : s.Touched t) : t.stack = s.stack := by cases touched <;> rfl

theorem memory (touched : s.Touched t) : t.memory = s.memory := by cases touched <;> rfl

end State.Touched

private theorem getLast?_toList {α : Type} (o : Option α) : o.toList.getLast? = o := by
  cases o <;> rfl

namespace Console

/-- The state that a line loads, if it loads one. -/
def loadedBy (console : Console) (line : String) : Option State :=
  match Command.parse line with
  | .ok .load => (Slot.load console.disk console.slot).toOption
  | _ => none

/-- The state that a turn at the prompt loads, if it comes to a line that loads one. -/
def loadedInTurn (console : Console) : Option State :=
  match (console.write (bytesOfText console.prompt)).2, console.source.readLine.1 with
  | none, .line line => console.loadedBy (textOfLine line)
  | _, _ => none

/-- The states that a request for input loads, the last of them last. -/
def loads (console : Console) (s : State) : List State :=
  match console.pending with
  | _ :: _ => []
  | [] =>
    match _turned : console.turn s with
    | (some _, _, _) => console.loadedInTurn.toList
    | (none, after, t) => console.loadedInTurn.toList ++ after.loads t
termination_by console.source.signals.length
decreasing_by exact length_source_turn_lt _turned

theorem loads_of_pending {console : Console} {word : Word} {rest : List Word}
    (waiting : console.pending = word :: rest) (s : State) : console.loads s = [] := by
  rw [loads]
  simp only [waiting]

theorem loads_of_turn_some {console after : Console} {s t : State} {delivery : Delivery}
    (empty : console.pending = []) (turned : console.turn s = (some delivery, after, t)) :
    console.loads s = console.loadedInTurn.toList := by
  rw [loads]
  simp only [empty]
  split
  · rfl
  · next again =>
    rw [turned] at again
    cases again

theorem loads_of_turn_none {console after : Console} {s t : State}
    (empty : console.pending = []) (turned : console.turn s = (none, after, t)) :
    console.loads s = console.loadedInTurn.toList ++ after.loads t := by
  rw [loads]
  simp only [empty]
  split
  · next again =>
    rw [turned] at again
    cases again
  · next again =>
    rw [turned] at again
    cases again
    rfl

/-- A line leaves the state that it loads, or the state as it was if it loads none. -/
theorem touched_of_effect {console : Console} {line : List Char} {s t : State} {words : List Word} {answer : String}
    {after : Disk} (effect : Effect console.slot line s console.disk words answer t after) :
    ((console.loadedBy (String.ofList line)).getD s).Touched t := by
  unfold loadedBy
  cases effect with
  | loaded parsed loaded =>
    simp only [parsed, loaded]
    exact .same
  | notLoaded parsed failed =>
    simp only [parsed, failed]
    exact .same
  | registerSet parsed =>
    simp only [parsed]
    exact .set (Command.lt_of_parse_setRegister7 parsed)
  | input parsed | saved parsed _ | notSaved parsed _ | refused parsed =>
    simp only [parsed]
    exact .same

theorem turn_touched {console after : Console} {s t : State} {outcome : Option Delivery}
    (turned : console.turn s = (outcome, after, t)) : (console.loadedInTurn.getD s).Touched t := by
  obtain ⟨asked, failure, written⟩ := exists_write console (bytesOfText console.prompt)
  rcases read : console.source.readLine with ⟨line | _ | error, rest⟩
  · obtain ⟨words, answer, u, disk, effect⟩ :=
      exists_effect console.slot (Utf8.decodeLossy (chomp line)) s console.disk
    have touched := touched_of_effect effect
    rw [turn_of_effect read effect, written] at turned
    simp only [loadedInTurn, written, read]
    cases failure with
    | some error =>
      cases turned
      exact .same
    | none =>
      simp only at turned
      split at turned
      · cases turned
        exact touched
      · cases turned
        exact touched
  · rw [turn_of_refusal read rfl, written] at turned
    simp only [loadedInTurn, written, read]
    cases failure <;> cases turned <;> exact .same
  · rw [turn_of_refusal read rfl, written] at turned
    simp only [loadedInTurn, written, read]
    cases failure <;> cases turned <;> exact .same

/-- A request leaves the state that it loads last, or the state as it was if it loads none,
    but for register 7. -/
theorem nextInput_touched (console : Console) (s : State) :
    ((console.loads s).getLast?.getD s).Touched (console.nextInput s).2.2 := by
  refine nextInput_induction (P := fun console s came => ((console.loads s).getLast?.getD s).Touched came.2.2)
    ?_ ?_ ?_ console s
  · intro console s word rest waiting
    rw [loads_of_pending waiting]
    exact .same
  · intro console s delivery after t empty turned
    rw [loads_of_turn_some empty turned, getLast?_toList]
    exact turn_touched turned
  · intro console s after t came empty turned ih
    rw [loads_of_turn_none empty turned, List.getLast?_append, getLast?_toList]
    cases later : (after.loads t).getLast? with
    | some u =>
      rw [later] at ih
      exact ih
    | none =>
      rw [later] at ih
      exact (turn_touched turned).trans ih

/-- Without a load a request leaves the state as it was, but for register 7. -/
theorem touched_of_loads_eq_nil {console after : Console} {s t : State} {delivery : Delivery}
    (asked : console.nextInput s = (delivery, after, t)) (none : console.loads s = []) : s.Touched t := by
  have touched := console.nextInput_touched s
  rw [asked, none] at touched
  exact touched

theorem exists_load_of_loadedInTurn {console : Console} {t : State} (loaded : t ∈ console.loadedInTurn.toList) :
    ∃ disk slot, Slot.load disk slot = .ok t := by
  rw [Option.mem_toList, loadedInTurn] at loaded
  split at loaded
  · unfold loadedBy at loaded
    split at loaded
    · cases loads : Slot.load console.disk console.slot with
      | error error =>
        rw [loads] at loaded
        cases loaded
      | ok u =>
        rw [loads] at loaded
        cases loaded
        exact ⟨_, _, loads⟩
    · cases loaded
  · cases loaded

/-- What a request loads was in a slot. -/
theorem exists_load_of_mem_loads {console : Console} {s t : State} (loaded : t ∈ console.loads s) :
    ∃ disk slot, Slot.load disk slot = .ok t := by
  revert loaded
  refine nextInput_induction (P := fun console s _ => t ∈ console.loads s → ∃ disk slot, Slot.load disk slot = .ok t)
    ?_ ?_ ?_ console s
  · intro console s word rest waiting loaded
    rw [loads_of_pending waiting] at loaded
    cases loaded
  · intro console s delivery after u empty turned loaded
    rw [loads_of_turn_some empty turned] at loaded
    exact exists_load_of_loadedInTurn loaded
  · intro console s after u came empty turned ih loaded
    rw [loads_of_turn_none empty turned, List.mem_append] at loaded
    exact loaded.elim exists_load_of_loadedInTurn ih

/-- A request does not lead the program counter out of memory. -/
theorem inside_nextInput {console after : Console} {s t : State} {delivery : Delivery}
    (asked : console.nextInput s = (delivery, after, t)) (inside : s.pc.toNat < Memory.size) :
    t.pc.toNat < Memory.size := by
  have touched := console.nextInput_touched s
  rw [asked] at touched
  rw [touched.pc]
  cases last : (console.loads s).getLast? with
  | none => exact inside
  | some u =>
    obtain ⟨disk, slot, loads⟩ := exists_load_of_mem_loads (List.mem_of_getLast? last)
    exact Slot.inside_of_load loads

end Console

end WordMachine
