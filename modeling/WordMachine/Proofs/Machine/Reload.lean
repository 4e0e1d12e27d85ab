import WordMachine.Proofs.Machine.Comparison
import WordMachine.Proofs.Machine.Rewind
import WordMachine.Proofs.Slot.Alike

/-!
Loads. The step of a load goes on, from the state that was loaded, as an `in` with the
rest of the input (`step_of_load`). So two machines that load the same file are alike from
then on, whatever their states were before (`load_erases`). And a machine goes on from a
load like one that starts in the state that was loaded exactly if that state is at an
`in` (`load_continues_iff`); any other instruction there is taken for one (`load_at_noop`).
-/
namespace WordMachine

namespace Console

/-- The console that has read the line of a load and answered it, with the rest to come. -/
def loaded (console : Console) (rest : List UInt8) : Console :=
  { console with
    source := .ofBytes rest
    sink := ⟨console.sink.written ++ bytesOfText console.prompt ++ bytesOfText "Loaded.\n\n", none⟩ }

theorem written_loaded (console : Console) (rest : List UInt8) :
    (console.loaded rest).sink.written
      = console.sink.written ++ (bytesOfText console.prompt ++ bytesOfText "Loaded.\n\n").toArray :=
  Array.ext' (by simp [loaded])

/-- A request that comes to a load goes on with the state that is loaded. -/
theorem nextInput_of_load {console : Console} {rest : List UInt8} {s : State}
    (unread : console.source = .ofBytes (loadLine ++ rest)) (empty : console.pending = [])
    (roomy : console.sink.room = none) (loads : Slot.load console.disk console.slot = .ok s) (t : State) :
    console.nextInput t = (console.loaded rest).nextInput s := by
  have reads : console.Reads (loadLine :: linesOf rest) :=
    ⟨⟨_, unread, Moment.linesOf_loadLine_append rest⟩, roomy⟩
  rw [reads.nextInput empty (effect_loadLine loads), flatten_linesOf, loaded, empty]

/-- A request for input never gives back what has been read. -/
theorem length_source_nextInput_le (console : Console) (s : State) :
    (console.nextInput s).2.1.source.signals.length ≤ console.source.signals.length := by
  have less := Moment.length_source_finish_le ⟨.new s console none, true⟩
  rw [Moment.finish, if_pos rfl, Machine.console_conclude, Machine.console_settle] at less
  exact less

/-- A request for input without pending words reads at least one line, if there is one. -/
theorem length_source_nextInput_lt {console : Console} {bytes : List UInt8} (unread : console.source = .ofBytes bytes)
    (roomy : console.sink.room = none) (empty : console.pending = []) (something : bytes ≠ []) (s : State) :
    (console.nextInput s).2.1.source.signals.length < console.source.signals.length := by
  obtain ⟨line, later, cut⟩ := List.exists_cons_of_ne_nil (mt linesOf_eq_nil_iff.mp something)
  have reads : console.Reads (line :: later) := ⟨⟨bytes, unread, cut⟩, roomy⟩
  obtain ⟨words, answer, t, after, effect⟩ := exists_effect console.slot (Utf8.decodeLossy (chomp line)) s console.disk
  rw [reads.nextInput empty effect]
  exact Nat.lt_of_le_of_lt (length_source_nextInput_le _ t) (Source.length_readLine_lt reads.of_cons.1)

end Console

namespace Comparison

/-- Two runs whose slots lead to the same file, whatever else is on their disks. -/
def sharingFile (slot prompt : String) (said told : Array UInt8) (early late : Nat) : Comparison where
  slot := slot
  prompt := prompt
  kept _ := True
  extra _ := False
  alike := Disk.SharesFile slot
  said := said
  told := told
  early := early
  late := late
  both _ shares effect := effect.of_alike shares shares.save shares.refused fun _ => shares.load
  alone never := never.elim

variable {slot prompt : String} {said told : Array UInt8} {early late : Nat}

/-- Consoles without pending words that have the same to read are abreast, whatever they
    have written. -/
theorem abreast_sharingFile (first second : Console) {bytes : List UInt8} (unread : first.source = .ofBytes bytes)
    (alsoUnread : second.source = .ofBytes bytes) (roomy : first.sink.room = none) (alsoRoomy : second.sink.room = none)
    (empty : first.pending = []) (alsoEmpty : second.pending = []) (slot : second.slot = first.slot)
    (prompt : second.prompt = first.prompt) (shares : Disk.SharesFile first.slot first.disk second.disk) (early late : Nat) :
    (sharingFile first.slot first.prompt first.sink.written second.sink.written early late).Abreast
      (linesOf bytes) (linesOf bytes) first second where
  kept := fun _ _ => trivial
  reads := ⟨⟨bytes, unread, rfl⟩, roomy⟩
  alsoReads := ⟨⟨bytes, alsoUnread, rfl⟩, alsoRoomy⟩
  pending := empty.trans alsoEmpty.symm
  slot := rfl
  alsoSlot := slot
  prompt := rfl
  alsoPrompt := prompt
  alike := shares
  written := .start

variable {m n : Machine}

theorem Together.source (together : (sharingFile slot prompt said told early late).Together m n) :
    m.console.source = n.console.source := by
  obtain ⟨lines, more, between, abreast⟩ := together.abreast
  obtain rfl := Interposed.eq_of_never between
  exact abreast.reads.source_unique abreast.alsoReads

end Comparison

namespace Machine

/-- A running machine at an `in`, with no word pending and an input to come, on devices
    that do not fail. -/
structure Awaits (m : Machine) (bytes : List UInt8) : Prop where
  runs : m.status = .running
  inside : m.state.pc.toNat ≤ 32766
  opcode : m.state.memory.read? m.state.pc.toNat = some 20
  empty : m.console.pending = []
  unread : m.console.source = .ofBytes bytes
  roomy : m.console.sink.room = none

variable {m n : Machine} {rest : List UInt8} {s : State}

/-- The step of a load is an `in` from the state that is loaded, with the rest of the
    input, whatever instruction that state is at. -/
theorem step_of_load (awaits : m.Awaits (loadLine ++ rest))
    (loads : Slot.load m.console.disk m.console.slot = .ok s) :
    m.step.1 = m.conclude (settle ((m.console.loaded rest).nextInput s)) := by
  have waits : m.state.atInput = true := State.atInput_iff_read?.mpr ⟨awaits.inside, awaits.opcode⟩
  rw [step_of_running awaits.runs, execute_of_atInput waits,
    Console.nextInput_of_load awaits.unread awaits.empty awaits.roomy loads]

/-- Machines that load the same file, with the same prompt and the same input to come,
    are together after it. -/
theorem together_of_load (awaits : m.Awaits (loadLine ++ rest)) (alsoAwaits : n.Awaits (loadLine ++ rest))
    (slot : n.console.slot = m.console.slot) (prompt : n.console.prompt = m.console.prompt)
    (shares : Disk.SharesFile m.console.slot m.console.disk n.console.disk)
    (loads : Slot.load m.console.disk m.console.slot = .ok s) :
    (Comparison.sharingFile m.console.slot m.console.prompt (m.console.loaded rest).sink.written
      (n.console.loaded rest).sink.written m.steps n.steps).Together m.step.1 n.step.1 := by
  have alsoLoads : Slot.load n.console.disk n.console.slot = .ok s := by
    rw [slot, ← shares.load]
    exact loads
  have abreast := Comparison.abreast_sharingFile (m.console.loaded rest) (n.console.loaded rest)
    rfl rfl rfl rfl awaits.empty alsoAwaits.empty slot prompt shares m.steps n.steps
  have agree := Comparison.nextInput (.refl _ _) abreast s
  rw [step_of_load awaits loads, step_of_load alsoAwaits alsoLoads]
  exact agree.together (awaits.runs.trans alsoAwaits.runs.symm) ⟨0, rfl, rfl⟩

/-- Nothing of the states before a load is left after it. Two machines that load the same
    file, with the same prompt and the same input to come, agree after every number of
    steps from the load on, and write the same. -/
theorem load_erases (awaits : m.Awaits (loadLine ++ rest)) (alsoAwaits : n.Awaits (loadLine ++ rest))
    (slot : n.console.slot = m.console.slot) (prompt : n.console.prompt = m.console.prompt)
    (shares : Disk.SharesFile m.console.slot m.console.disk n.console.disk)
    (loads : Slot.load m.console.disk m.console.slot = .ok s) (k : Nat) :
    let first := m.after (k + 1)
    let second := n.after (k + 1)
    first.state = second.state ∧ first.status = second.status ∧
      first.console.pending = second.console.pending ∧ first.console.source = second.console.source ∧
      Disk.SharesFile m.console.slot first.console.disk second.console.disk ∧
      ∃ more : Array UInt8, first.console.sink.written = m.console.sink.written ++ more ∧
        second.console.sink.written = n.console.sink.written ++ more := by
  intro first second
  have together := (together_of_load awaits alsoAwaits slot prompt shares loads).after k
  rw [after_step, after_step] at together
  obtain ⟨lines, others, -, abreast⟩ := together.abreast
  obtain ⟨more, said, told⟩ := Interspersed.grown abreast.written
  refine ⟨together.state, together.status, together.pending, together.source, abreast.alike,
    (Console.bytesOfText m.console.prompt ++ Console.bytesOfText "Loaded.\n\n").toArray ++ more, ?_, ?_⟩
  · rw [← Array.append_assoc, ← Console.written_loaded m.console rest]
    exact said
  · rw [← Array.append_assoc, ← prompt, ← Console.written_loaded n.console rest]
    exact told

/-- A disk with one slot, at which a state is saved. -/
def keeping (s : State) : Disk := Disk.empty.put ⟨.above 0, ["save.json"]⟩ (.file (Snapshot.capture s).bytes)

theorem load_keeping {s : State} (inside : s.pc.toNat < Memory.size) : Slot.load (keeping s) "save.json" = .ok s := by
  rw [keeping, Slot.load_of_save (Slot.save_empty s), if_pos inside]

/-- Two programs that load a state at a `noop`, one of them on a disk with another file. -/
theorem load_erases_programs :
    let s : State := .start (.padded [21, 20, 32768])
    let other := (keeping s).put ⟨.above 0, ["notes"]⟩ (.file [])
    let bytes := loadLine ++ Console.bytesOfText "y\n"
    let m := onInput (.start (.padded [20, 32768])) "save.json" ">>> " (keeping s) bytes
    let n := onInput { State.start (.padded [0, 0, 20, 5]) with pc := 2 } "save.json" ">>> " other bytes
    m.Awaits bytes ∧ n.Awaits bytes ∧ Disk.SharesFile "save.json" (keeping s) other ∧
      Slot.load (keeping s) "save.json" = .ok s ∧ m.state ≠ n.state ∧
      ∀ k, (m.after (k + 1)).state = (n.after (k + 1)).state := by
  intro s other bytes m n
  have opcode : (Memory.padded [20, 32768]).read? 0 = some 20 := Memory.read?_padded _ (by decide)
  have alsoOpcode : (Memory.padded [0, 0, 20, 5]).read? 2 = some 20 := Memory.read?_padded _ (by decide)
  have awaits : m.Awaits bytes := ⟨rfl, by decide, opcode, rfl, rfl, rfl⟩
  have alsoAwaits : n.Awaits bytes := ⟨rfl, by decide, alsoOpcode, rfl, rfl, rfl⟩
  have loads : Slot.load (keeping s) "save.json" = .ok s := load_keeping (by decide)
  have shares : Disk.SharesFile "save.json" (keeping s) other := ⟨(Snapshot.capture s).bytes, rfl, rfl⟩
  have different : m.state ≠ n.state := by
    intro same
    cases congrArg State.pc same
  refine ⟨awaits, alsoAwaits, shares, loads, different, fun k => ?_⟩
  exact (load_erases awaits alsoAwaits rfl rfl shares loads k).1

/-! ### Going on from a load -/

theorem source_step_of_busy (runs : m.status = .running) (busy : m.state.atInput = false) :
    m.step.1.console.source = m.console.source := by
  obtain ⟨bytes, t, status, executes⟩ := exists_execute busy
  rw [step_of_running runs, executes]
  simp

/-- A machine that starts in the state that is loaded, on the rest of the input. -/
def freshFrom (m : Machine) (s : State) (rest : List UInt8) : Machine :=
  onInput s m.console.slot m.console.prompt m.console.disk rest

/-- A load that leads to an `in` is as good as starting there. -/
theorem together_fresh (awaits : m.Awaits (loadLine ++ rest))
    (loads : Slot.load m.console.disk m.console.slot = .ok s) (waits : s.atInput = true) :
    (Comparison.sharingFile m.console.slot m.console.prompt (m.console.loaded rest).sink.written #[] m.steps 0).Together
      m.step.1 (m.freshFrom s rest).step.1 := by
  have abreast := Comparison.abreast_sharingFile (m.console.loaded rest) (m.freshFrom s rest).console
    rfl rfl rfl rfl awaits.empty rfl rfl rfl (.of_load loads) m.steps 0
  have agree := Comparison.nextInput (.refl _ _) abreast s
  have fresh : (m.freshFrom s rest).step.1 = (m.freshFrom s rest).conclude
      (settle ((m.freshFrom s rest).console.nextInput s)) := by
    rw [step_of_running rfl]
    exact congrArg _ (execute_of_atInput waits _)
  rw [step_of_load awaits loads, fresh]
  exact agree.together awaits.runs ⟨0, rfl, rfl⟩

/-- A load that leads to another instruction is not: the machine that starts there leaves
    the input alone. -/
theorem not_together_fresh (awaits : m.Awaits (loadLine ++ rest))
    (loads : Slot.load m.console.disk m.console.slot = .ok s) (busy : s.atInput = false) :
    m.step.1.status ≠ (m.freshFrom s rest).step.1.status ∨
      m.step.1.console.source ≠ (m.freshFrom s rest).step.1.console.source := by
  rw [step_of_load awaits loads]
  -- With nothing to read only an `in` closes the input; otherwise only an `in` reads.
  by_cases nothing : rest = []
  · left
    subst nothing
    have closed := @Console.nextInput_of_end (m.console.loaded []) rfl awaits.empty rfl s
    rw [closed]
    exact (status_step_of_busy rfl busy).symm
  · right
    intro same
    have less := @Console.length_source_nextInput_lt (m.console.loaded rest) rest rfl rfl awaits.empty nothing s
    rw [source_step_of_busy rfl busy] at same
    rw [console_conclude, console_settle] at same
    rw [same] at less
    exact Nat.lt_irrefl _ less

/-- A machine goes on from a load just as one does that starts in the state that is
    loaded, whatever is still to come, if that state is at an `in`, and only then. -/
theorem load_continues_iff (awaits : m.Awaits (loadLine ++ rest))
    (loads : Slot.load m.console.disk m.console.slot = .ok s) :
    (m.step.1.state = (m.freshFrom s rest).step.1.state ∧ m.step.1.status = (m.freshFrom s rest).step.1.status ∧
      m.step.1.console.source = (m.freshFrom s rest).step.1.console.source) ↔
    s.pc.toNat ≤ 32766 ∧ s.memory.read? s.pc.toNat = some 20 := by
  rw [← State.atInput_iff_read?]
  constructor
  · rintro ⟨-, statuses, sources⟩
    cases waits : s.atInput with
    | true => rfl
    | false =>
      obtain different | different := not_together_fresh awaits loads waits
      · exact absurd statuses different
      · exact absurd sources different
  · intro waits
    have together := together_fresh awaits loads waits
    exact ⟨together.state, together.status, together.source⟩

/-- A program that loads itself. -/
theorem load_continues_at_input :
    let s : State := .start (.padded [20, 32768])
    let rest := Console.bytesOfText "y\n"
    let m := onInput s "save.json" ">>> " (keeping s) (loadLine ++ rest)
    m.Awaits (loadLine ++ rest) ∧ Slot.load (keeping s) "save.json" = .ok s ∧
      m.step.1.state = (m.freshFrom s rest).step.1.state ∧ m.step.1.status = (m.freshFrom s rest).step.1.status ∧
      m.step.1.console.source = (m.freshFrom s rest).step.1.console.source := by
  intro s rest m
  have opcode : s.memory.read? s.pc.toNat = some 20 := Memory.read?_padded _ (by decide)
  have awaits : m.Awaits (loadLine ++ rest) := ⟨rfl, by decide, opcode, rfl, rfl, rfl⟩
  have loads : Slot.load (keeping s) "save.json" = .ok s := load_keeping (by decide)
  exact ⟨awaits, loads, (load_continues_iff awaits loads).mpr ⟨by decide, opcode⟩⟩

/-- A state that is saved at a `noop` does not go on with it once it is loaded: the `noop`
    is carried out as an `in`, with the word behind it for an operand. -/
theorem load_at_noop :
    let s : State := .start (.padded [21, 20, 32768])
    let rest := Console.bytesOfText "y\n"
    let m := onInput { s with pc := 1 } "save.json" ">>> " (keeping s) (loadLine ++ rest)
    let fresh := (m.freshFrom s rest).step.1
    m.Awaits (loadLine ++ rest) ∧ Slot.load (keeping s) "save.json" = .ok s ∧
      (m.step.1.state.pc = 2 ∧ m.step.1.state.memory.read? 20 = some 121 ∧ m.step.1.console.source = .ofBytes []) ∧
      fresh.state.pc = 1 ∧ fresh.state.memory.read? 20 = some 0 ∧ fresh.console.source = .ofBytes rest := by
  intro s rest m fresh
  have opcode : s.memory.read? 1 = some 20 := Memory.read?_padded _ (by decide)
  have clear : s.memory.read? 20 = some 0 := Memory.read?_padded _ (by decide)
  have awaits : m.Awaits (loadLine ++ rest) := ⟨rfl, by decide, opcode, rfl, rfl, rfl⟩
  have loads : Slot.load (keeping s) "save.json" = .ok s := load_keeping (by decide)
  have begins : s.memory.read? s.pc.toNat = some 21 := Memory.read?_padded _ (by decide)
  have named : Operation.ofWord? 21 = some .noop := rfl
  obtain ⟨operands, fetched⟩ := State.exists_fetch begins named (by decide)
  have executed : execute s (m.freshFrom s rest).console
      = ({ s with pc := 1 }, (m.freshFrom s rest).console, .ok .running) := by
    rw [execute, fetched]
    rfl
  have passed : fresh = (m.freshFrom s rest).conclude (execute s (m.freshFrom s rest).console) := step_of_running rfl
  rw [executed] at passed
  have reads : (m.console.loaded rest).Reads [rest] := ⟨⟨rest, rfl, by decide⟩, rfl⟩
  have effect : Effect "save.json" (Utf8.decodeLossy (chomp rest)) s (keeping s) [121, 10] "" s (keeping s) := by
    have text : chomp rest = Utf8.encode "y".toList := rfl
    rw [text, Utf8.decodeLossy_encode]
    exact .input rfl
  have asked := (reads.nextInput rfl effect).trans (Console.nextInput_of_pending rfl s)
  obtain ⟨written, done⟩ : ∃ written, s.memory.write? 20 121 = some written := by
    refine Option.ne_none_iff_exists'.mp fun none => ?_
    exact absurd (Memory.write?_eq_none_iff.mp none) (by decide)
  have received : s.receive 121 = ({ s with pc := 2, memory := written }, .running) :=
    State.receive_literal opcode rfl done
  have stepped : m.step.1 = m.conclude (settle ((m.console.loaded rest).nextInput s)) := step_of_load awaits loads
  rw [asked, settle, received] at stepped
  rw [stepped, passed]
  exact ⟨awaits, loads, ⟨rfl, (Memory.read?_of_write? done 20).trans (if_pos rfl), rfl⟩, rfl, clear, rfl⟩

end Machine

end WordMachine
