import WordMachine.Proofs.Slot.RoundTrip
import WordMachine.Proofs.Snapshot.Members

/-!
Files that someone else has written. A file with an object is loaded as a state if and
only if the program counter of the state lies in memory and the members of the object
render its snapshot, and otherwise it is refused as no snapshot of a state
(`load_objectText`). The ways in which members can fail to render any are listed
(`Flawed`).
-/
namespace WordMachine

/-- The file of a slot can be read, but it holds no state. -/
inductive SlotError.Invalid : SlotError → Prop
  | malformed {path : String} {cause : Json.Error} : Invalid (.malformed path cause)
  | inconsistent {defect : Defect} : Invalid (.inconsistent defect)

namespace Snapshot

theorem toList_of_ofWords? {words : List Word} {registers : Registers}
    (given : Registers.ofWords? words = some registers) : words = registers.toList := by
  unfold Registers.ofWords? at given
  split at given
  · cases given
    rfl
  · cases given

theorem words_of_ofDump {words : List Word} {memory : Memory} (dumped : Memory.ofDump words = .ok memory) :
    words = memory.words := by
  unfold Memory.ofDump Memory.ofWords? at dumped
  split at dumped
  · next given =>
    split at given
    · cases given
      cases dumped
      rfl
    · cases given
  · cases dumped

/-- A snapshot is the one of the state that is restored from it. -/
theorem restore_eq_ok_iff {snapshot : Snapshot} {s : State} :
    snapshot.restore = .ok s ↔ s.pc.toNat < Memory.size ∧ snapshot = capture s := by
  constructor
  · intro restored
    unfold restore at restored
    split at restored
    · next inside =>
      split at restored
      · cases restored
      · next eight =>
        split at restored
        · cases restored
        · next full =>
          cases restored
          refine ⟨inside, ?_⟩
          rw [capture, ← toList_of_ofWords? eight, ← words_of_ofDump full, List.reverse_reverse]
    · cases restored
  · rintro ⟨inside, rfl⟩
    exact restore_capture inside

/-- What keeps members from rendering the snapshot of any state. -/
inductive Flawed (members : List Member) : Prop
  | doubled {field : Field} : 2 ≤ (membersOf field members).length → Flawed members
  | missing {field : Field} : field ≠ .stack → membersOf field members = [] → Flawed members
  | unreadable {field : Field} {member : Member} : member ∈ membersOf field members →
      (∀ words, ¬ Holds field words member.value) → Flawed members
  | pcOutside {member : Member} {w : Word} : member ∈ membersOf .pc members → Holds .pc [w] member.value →
      Memory.size ≤ w.toNat → Flawed members
  | registerCount {member : Member} {words : List Word} : member ∈ membersOf .registers members →
      Holds .registers words member.value → words.length ≠ Registers.count → Flawed members
  | memoryLength {member : Member} {words : List Word} : member ∈ membersOf .memory members →
      Holds .memory words member.value → words.length ≠ Memory.size → Flawed members

/-- A member of a part holds what the snapshot has for it. -/
theorem Renders.holds {snapshot : Snapshot} {members : List Member} (renders : Renders snapshot members) {field : Field}
    {member : Member} (given : member ∈ membersOf field members) :
    Holds field (snapshot.part field) member.value := by
  rcases renders field with ⟨-, none, -⟩ | ⟨only, single, held⟩
  · rw [none] at given
    cases given
  · rw [single, List.mem_singleton] at given
    exact given ▸ held

theorem not_renders_of_flawed {members : List Member} (flawed : Flawed members) {s : State}
    (inside : s.pc.toNat < Memory.size) : ¬ Renders (capture s) members := by
  intro renders
  cases flawed with
  | @doubled field twice =>
    rcases renders field with ⟨-, none, -⟩ | ⟨only, single, -⟩
    · simp [none] at twice
    · simp [single] at twice
  | @missing field needed none =>
    rcases renders field with ⟨stack, -⟩ | ⟨only, single, -⟩
    · exact needed stack
    · cases none.symm.trans single
  | unreadable given other => exact other _ (renders.holds given)
  | pcOutside given held outside =>
    have same := held.unique (renders.holds given)
    rw [List.singleton_inj.mp same] at outside
    exact absurd inside (Nat.not_lt.mpr outside)
  | registerCount given held count =>
    rw [held.unique (renders.holds given)] at count
    exact count (Vector.length_toList)
  | memoryLength given held length =>
    rw [held.unique (renders.holds given)] at length
    exact length (Memory.length_words s.memory)

end Snapshot

namespace Slot
open Json Snapshot

theorem decode_eq_ok_iff {path : String} {bytes : List UInt8} {s : State} :
    decode path bytes = .ok s ↔ s.pc.toNat < Memory.size ∧ parse bytes = .ok (capture s) := by
  unfold decode
  rcases parse bytes with error | snapshot
  · simp
  · rw [Except.ok.injEq, ← restore_eq_ok_iff]
    rcases given : snapshot.restore with defect | found
    · simp only [given, reduceCtorEq]
    · simp only [given, Except.ok.injEq]

theorem invalid_of_decode {path : String} {bytes : List UInt8} {error : SlotError}
    (refused : decode path bytes = .error error) : error.Invalid := by
  unfold decode at refused
  split at refused
  · cases refused
    exact .malformed
  · split at refused
    · cases refused
      exact .inconsistent
    · cases refused

/-- A file with an object is loaded as a state if and only if the members render it, in
    whatever order, with whatever spaces, and among whatever others; if they have a flaw
    it is refused. -/
theorem load_objectText {disk : Disk} {path : String} {front inside back : List UInt8} {members : List Member}
    (blank : Blank front) (blank' : Blank inside) (blank'' : Blank back) (wellFormed : ∀ m ∈ members, m.WellFormed)
    (found : disk.find path = .ok (.file (objectText front inside back members))) :
    (∀ s, load disk path = .ok s ↔ s.pc.toNat < Memory.size ∧ Renders (capture s) members) ∧
    (Flawed members → ∃ error, load disk path = .error error ∧ error.Invalid) := by
  have loaded : load disk path = decode path (objectText front inside back members) := by rw [load, found]
  have accepted (s : State) : load disk path = .ok s ↔ s.pc.toNat < Memory.size ∧ Renders (capture s) members := by
    rw [loaded, decode_eq_ok_iff, parse_objectText blank blank' blank'' wellFormed]
  refine ⟨accepted, ?_⟩
  intro flawed
  rcases result : load disk path with error | s
  · rw [loaded] at result
    exact ⟨error, rfl, invalid_of_decode result⟩
  · obtain ⟨inside, renders⟩ := (accepted s).mp result
    exact absurd renders (not_renders_of_flawed flawed inside)

/-- A memory first, a member with another name, `cur` after a tab and no stack: the state is
    found. With `pc` beside `cur`, or with zeros in front of the number, it is refused. -/
theorem load_objectText_any_order :
    let s : State := ⟨5, ⟨#[1, 2, 3, 4, 5, 6, 7, 65535], rfl⟩, [], Memory.empty⟩
    let list (words : List Word) := Utf8.encode (renderList words)
    let memory : Member := ⟨[10], "memory".toList, [32], list s.memory.words⟩
    let note : Member := ⟨[], "note".toList, [], Utf8.encode "[null, []]".toList⟩
    let cur : Member := ⟨[9], "cur".toList, [], [32, 53]⟩
    let registers : Member := ⟨[], "registers".toList, [], list s.registers.toList⟩
    let pc : Member := ⟨[], "pc".toList, [], [53]⟩
    let zeros : Member := ⟨[], "pc".toList, [], [48, 48, 53]⟩
    let load' (members : List Member) :=
      load (Disk.empty.put ⟨.above 0, ["save.json"]⟩ (.file (objectText [] [] [10] members))) "save.json"
    load' [memory, note, cur, registers] = .ok s ∧
    (∃ error, load' [memory, note, cur, registers, pc] = .error error ∧ error.Invalid) ∧
    ∃ error, load' [memory, note, registers, zeros] = .error error ∧ error.Invalid := by
  intro s list memory note cur registers pc zeros load'
  have found (members : List Member) :
      (Disk.empty.put ⟨.above 0, ["save.json"]⟩ (.file (objectText [] [] [10] members))).find "save.json"
        = .ok (.file (objectText [] [] [10] members)) := rfl
  have spaces : Blank [10] ∧ Blank [32] ∧ Blank [9] := by decide
  have five : wordBytes 5 = [53] := Json.decimal_of_lt (by decide)
  have heldMemory : Holds .memory s.memory.words memory.value :=
    holds_renderList (show Field.memory ≠ .pc by decide) s.memory.words
  have heldRegisters : Holds .registers s.registers.toList registers.value :=
    holds_renderList (show Field.registers ≠ .pc by decide) s.registers.toList
  have heldCur : Holds .pc [5] cur.value := ⟨[32], wordBytes 5, [], spaces.2.1, blank_nil, .word, by rw [five]; rfl⟩
  have heldPc : Holds .pc [5] pc.value := ⟨[], wordBytes 5, [], blank_nil, blank_nil, .word, by rw [five]; rfl⟩
  have goodMemory : memory.WellFormed := .of_holds spaces.1 (plain_name .memory) spaces.2.1 heldMemory
  have goodRegisters : registers.WellFormed := .of_holds blank_nil (plain_name .registers) blank_nil heldRegisters
  have goodCur : cur.WellFormed := .of_holds spaces.2.2 (by decide) blank_nil heldCur
  have goodPc : pc.WellFormed := .of_holds blank_nil (plain_name .pc) blank_nil heldPc
  have goodZeros : zeros.WellFormed := ⟨blank_nil, plain_name .pc, blank_nil, nofun, fun _ _ => .token (by simp [zeros])⟩
  have goodNote : note.WellFormed := by
    have null : ValueText (110 :: nullTail) := .literal List.mem_cons_self
    have list : ValueText [91, 93] := @ValueText.empty .list [] blank_nil
    have around : ∀ item ∈ [(⟨[], 110 :: nullTail, []⟩ : Item), ⟨[32], [91, 93], []⟩],
        LeadText .list item.lead ∧ Blank item.back := by
      simpa using ⟨⟨LeadText.list blank_nil, blank_nil⟩, LeadText.list spaces.2.1, blank_nil⟩
    have value := ValueText.items around (by simpa using ⟨null, list⟩)
    exact ⟨blank_nil, by decide, blank_nil,
      fun _ => ⟨[], _, [], blank_nil, blank_nil, value, by decide⟩, nofun⟩
  have renders : Renders (capture s) [memory, note, cur, registers] := by
    rintro (_ | _ | _ | _)
    · exact .inr ⟨cur, rfl, heldCur⟩
    · exact .inr ⟨registers, rfl, heldRegisters⟩
    · exact .inl ⟨rfl, rfl, rfl⟩
    · exact .inr ⟨memory, rfl, heldMemory⟩
  have unread : ∀ words, ¬ Holds .pc words zeros.value := by
    intro words held
    obtain ⟨_, -, read⟩ := readPart_holds held (.inl rfl) []
    have broken : readPart .pc (zeros.value ++ [44]) = .error .invalidNumber := rfl
    cases broken.symm.trans read
  have twice : 2 ≤ (membersOf .pc [memory, note, cur, registers, pc]).length := Nat.le_refl 2
  refine ⟨?_, ?_, ?_⟩
  · refine ((load_objectText blank_nil blank_nil spaces.1 ?_ (found _)).1 s).mpr ⟨by decide, renders⟩
    simpa using ⟨goodMemory, goodNote, goodCur, goodRegisters⟩
  · refine (load_objectText blank_nil blank_nil spaces.1 ?_ (found _)).2 (.doubled twice)
    simpa using ⟨goodMemory, goodNote, goodCur, goodRegisters, goodPc⟩
  · refine (load_objectText blank_nil blank_nil spaces.1 ?_ (found _)).2 (.unreadable List.mem_cons_self unread)
    simpa using ⟨goodMemory, goodNote, goodRegisters, goodZeros⟩

end Slot

end WordMachine
