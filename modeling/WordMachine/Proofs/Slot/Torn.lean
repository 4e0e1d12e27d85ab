import WordMachine.Proofs.Slot.RoundTrip
import WordMachine.Proofs.Snapshot.Parts

/-!
Files that were cut off, and files with more behind them. Where a reader succeeds on the
front part of a text it has found there what is in the whole text, so at the end of the
members of a snapshot nothing can be missing any more (`cut_eq_nil`). A file that a save
has written is therefore loaded in full or not at all, and only spaces may stand behind
it (`torn_or_extended`).
-/
namespace WordMachine.Snapshot
open Json

/-! ### The front part of a text -/

private theorem readContents_cut {bytes : List UInt8} (plain : ∀ b ∈ bytes, b ≠ 34 ∧ b ≠ 92 ∧ ¬ b < 32)
    (found : List UInt8) : readContents found bytes = .error .endOfText := by
  induction bytes generalizing found with
  | nil => rw [readContents]
  | cons b bytes ih =>
    obtain ⟨quote, escape, control⟩ := plain b List.mem_cons_self
    rw [readContents, if_neg quote, if_neg escape, if_neg control,
      ih fun c member => plain c (List.mem_cons_of_mem b member)]

/-- A name that is read is the one in the whole text. -/
theorem readText_front {name found : List Char} (plain : Plain name) {text rest cut more : List UInt8}
    (read : readText text = .ok (found, rest)) (whole : text ++ cut = Utf8.encode name ++ 34 :: more) :
    found = name ∧ rest ++ cut = more := by
  rcases List.append_eq_append_iff.mp whole with ⟨missing, split, -⟩ | ⟨inside, split, quoted⟩
  · have early : readText text = .error .endOfText := by
      rw [readText, readContents_cut fun b member => plain b (by rw [split]; exact List.mem_append_left _ member)]
    rw [early] at read
    cases read
  · rcases inside with _ | ⟨b, inside⟩
    · have early : readText text = .error .endOfText := by
        rw [readText, split, List.append_nil, readContents_cut plain]
      rw [early] at read
      cases read
    · obtain ⟨rfl, rfl⟩ := List.cons.inj quoted
      rw [split, readText_plain plain] at read
      cases read
      exact ⟨rfl, rfl⟩

theorem readColon_front {text rest : List UInt8} (read : readColon text = .ok rest) (cut : List UInt8) :
    readColon (text ++ cut) = .ok (rest ++ cut) := by
  unfold readColon at read
  split at read
  · cases read
  · next trimmed =>
    split at read
    · next colon =>
      cases read
      rw [readColon, trim_front trimmed cut]
      exact if_pos colon
    · cases read

/-- A place, with more behind it. -/
def Place.append (place : Place) (cut : List UInt8) : Place :=
  match place with
  | before rest => before (rest ++ cut)
  | behind rest => behind (rest ++ cut)

theorem nextInObject_front {text : List UInt8} {place : Place} (next : nextInObject text = .ok place)
    (cut : List UInt8) : nextInObject (text ++ cut) = .ok (place.append cut) := by
  unfold nextInObject at next
  split at next
  · cases next
  · next trimmed =>
    rw [nextInObject, trim_front trimmed cut]
    split at next
    · next closed =>
      cases next
      exact if_pos closed
    · next other =>
      split at next
      · next comma =>
        split at next
        · cases next
        · next inner =>
          split at next
          · next quote =>
            cases next
            simp only [if_neg other, if_pos comma, trim_front inner cut, if_pos quote]
            rfl
          · split at next <;> cases next
      · cases next

/-- A part that is read is the one in the whole text, unless the text was cut off where the
    part ends. -/
theorem readField_front {draft found : Draft} {field : Field} {text rest : List UInt8}
    (read : readField draft field text = .ok (found, rest)) (some : rest ≠ []) (cut : List UInt8) :
    readField draft field (text ++ cut) = .ok (found, rest ++ cut) := by
  rw [readField_eq] at read ⊢
  rcases given : readPart field text with error | ⟨words, after⟩
  · rw [given] at read
    cases read
  · rw [given] at read
    cases read
    obtain ⟨front, shown, blank, spelled, rfl, ends⟩ := readPart_eq_ok given
    have ends' : field = .pc → Ends (rest ++ cut) := by
      intro counter
      obtain ⟨b, more, rfl⟩ := List.exists_cons_of_ne_nil some
      exact ends_cons.mpr (ends_cons.mp (ends counter))
    rw [List.append_assoc, List.append_assoc, readPart_spelled blank spelled ends']
    rfl

/-! ### Members -/

/-- A member that is read from the front part of a text gives the same draft, and what is
    left of the text begins where the member ends. -/
theorem readMember_front {snapshot : Snapshot} {draft after found : Draft} {member text rest cut more : List UInt8}
    (shown : MemberText snapshot draft after member) (ends : Ends more)
    (read : readMember draft text = .ok (found, rest)) (some : rest ≠ []) (whole : text ++ cut = member ++ more) :
    found = after ∧ rest ++ cut = more := by
  obtain @⟨name, field, gap, value, plain, named, new, blank, part⟩ := shown
  rw [List.append_assoc, List.cons_append, List.append_assoc, List.cons_append] at whole
  unfold readMember at read
  split at read
  · cases read
  · next given =>
    obtain ⟨rfl, colon⟩ := readText_front plain given whole
    rw [named] at read
    simp only [new, Bool.false_eq_true, if_false] at read
    split at read
    · cases read
    · next gapped =>
      have gapped' := readColon_front gapped cut
      rw [colon, readColon_append blank, Except.ok.injEq] at gapped'
      have full := readField_front read some cut
      rw [← gapped', readField_partText part ends] at full
      cases full
      exact ⟨rfl, rfl⟩

/-- After a member that is read from the front part of a text, the reader goes on as the
    whole text does. -/
theorem readMembers_front {snapshot found : Snapshot} {draft after : Draft} {member front rest cut more : List UInt8}
    (shown : MemberText snapshot draft after member) (ends : Ends more)
    (read : readMembers draft front = .ok (found, rest)) (whole : front ++ cut = member ++ more) :
    nextInObject more = .ok (.behind (rest ++ cut)) ∨ ∃ later, nextInObject more = .ok (.before (later ++ cut)) ∧
      readMembers after later = .ok (found, rest) := by
  obtain ⟨between, left, first, next⟩ := readMembers_eq_ok_iff.mp read
  have some : left ≠ [] := by
    rintro rfl
    rcases next with ⟨next, -⟩ | ⟨_, next, -⟩ <;> cases next
  obtain ⟨rfl, rfl⟩ := readMember_front shown ends first some whole
  rcases next with ⟨next, -⟩ | ⟨later, next, read⟩
  · exact .inl (nextInObject_front next cut)
  · exact .inr ⟨later, nextInObject_front next cut, read⟩

/-- Nothing has been cut off behind members that are read to their end. -/
theorem cut_eq_nil {snapshot found : Snapshot} {draft after : Draft} {text front rest cut : List UInt8}
    (members : MembersText snapshot draft after text) (read : readMembers draft front = .ok (found, rest))
    (whole : front ++ cut = text) : cut = [] := by
  induction members generalizing front with
  | @last draft after text back member blank =>
    have ends : Ends (back ++ [125]) := ends_append blank (ends_cons.mpr (by decide))
    rcases readMembers_front member ends read whole with next | ⟨later, next, -⟩
    · rw [nextInObject_closer blank, Except.ok.injEq, Place.behind.injEq] at next
      exact (List.append_eq_nil_iff.mp next.symm).2
    · rw [nextInObject_closer blank] at next
      cases next
  | @more draft between after text back blanks later member blank blank' members ih =>
    have ends : Ends (back ++ 44 :: (blanks ++ 34 :: later)) := ends_append blank (ends_cons.mpr (by decide))
    rcases readMembers_front member ends read whole with next | ⟨left, next, read⟩
    · rw [nextInObject_comma blank blank'] at next
      cases next
    · rw [nextInObject_comma blank blank', Except.ok.injEq, Place.before.injEq] at next
      exact ih read next.symm

/-! ### The text of a snapshot -/

/-- The text of a snapshot is read as the snapshot, and what comes behind it is left. -/
theorem readFront_bytes (snapshot : Snapshot) (rest : List UInt8) :
    readFront (snapshot.bytes ++ rest) = .ok (snapshot, rest) := by
  obtain ⟨text, written, members⟩ := bytes_eq snapshot
  have read := readMembers_membersText members rest
  rw [readFront, written, List.cons_append, trim_cons (by decide), List.cons_append]
  exact read

theorem parse_append (snapshot : Snapshot) (rest : List UInt8) :
    parse (snapshot.bytes ++ rest) = if trim rest = [] then .ok snapshot else .error .trailingCharacters := by
  rw [parse, readFront_bytes]

/-- No text of a snapshot that was cut off is read as any. -/
theorem parse_front {snapshot found : Snapshot} {front cut : List UInt8} (whole : front ++ cut = snapshot.bytes)
    (read : parse front = .ok found) : cut = [] := by
  obtain ⟨text, written, members⟩ := bytes_eq snapshot
  rw [written] at whole
  unfold parse at read
  split at read
  · cases read
  · next given =>
    clear read
    rcases front with _ | ⟨b, front⟩
    · cases given
    · obtain ⟨rfl, inner⟩ := List.cons.inj whole
      rcases front with _ | ⟨b, front⟩
      · cases given
      · obtain ⟨rfl, later⟩ := List.cons.inj inner
        exact cut_eq_nil members given later

end WordMachine.Snapshot

namespace WordMachine.Slot

theorem isSpace_iff {b : UInt8} : Json.isSpace b = true ↔ b ∈ ([32, 9, 10, 13] : List UInt8) := by
  simp only [Json.isSpace, Bool.or_eq_true, beq_iff_eq, List.mem_cons, List.not_mem_nil, or_false]
  grind

theorem load_of_find {disk : Disk} {path : String} {text : List UInt8} (found : disk.find path = .ok (.file text)) :
    load disk path = decode path text := by
  rw [load, found]

theorem decode_front {path : String} {s : State} {front cut : List UInt8}
    (whole : front ++ cut = (Snapshot.capture s).bytes) (some : cut ≠ []) :
    ∃ cause, decode path front = .error (.malformed path cause) := by
  rcases read : Snapshot.parse front with cause | found
  · exact ⟨cause, by rw [decode, read]⟩
  · exact absurd (Snapshot.parse_front whole read) some

/-- A file that was cut off anywhere after a save is refused, and so is one with anything
    but spaces behind what was saved; with spaces there it is loaded as the state. -/
theorem torn_or_extended {s : State} (inside : s.pc.toNat < Memory.size) :
    (∀ before after place, save before place s = .ok after →
      after.find place = .ok (.file (Snapshot.capture s).bytes)) ∧
    ∀ disk path text, disk.find path = .ok (.file text) →
      (text <+: (Snapshot.capture s).bytes → text ≠ (Snapshot.capture s).bytes →
        ∃ cause, load disk path = .error (.malformed path cause)) ∧
      ∀ more, text = (Snapshot.capture s).bytes ++ more →
        ((∀ b ∈ more, b ∈ ([32, 9, 10, 13] : List UInt8)) → load disk path = .ok s) ∧
        (¬ (∀ b ∈ more, b ∈ ([32, 9, 10, 13] : List UInt8)) →
          load disk path = .error (.malformed path .trailingCharacters)) := by
  refine ⟨fun before after place saved => find_of_save saved, ?_⟩
  intro disk path text found
  rw [load_of_find found]
  refine ⟨?_, ?_⟩
  · rintro ⟨cut, whole⟩ proper
    refine decode_front whole ?_
    rintro rfl
    exact proper (by rw [← whole, List.append_nil])
  · rintro more rfl
    have spaces : (∀ b ∈ more, b ∈ ([32, 9, 10, 13] : List UInt8)) ↔ Json.trim more = [] := by
      rw [Snapshot.trim_eq_nil_iff]
      exact forall₂_congr fun b _ => isSpace_iff.symm
    rw [spaces, decode, Snapshot.parse_append]
    refine ⟨?_, ?_⟩
    · intro blank
      rw [if_pos blank]
      simp only [Snapshot.restore_capture inside]
    · intro solid
      rw [if_neg solid]

/-- The file of a state without its closing brace, an empty one, one with a line feed
    behind the state and one with a digit there. -/
theorem torn_or_extended_four_files :
    let s : State := ⟨5, Vector.replicate 8 7, [40000, 1], Memory.empty⟩
    let written := (Snapshot.capture s).bytes
    let disk (text : List UInt8) := Disk.empty.put ⟨.above 0, ["save.json"]⟩ (.file text)
    (∃ cause, load (disk written.dropLast) "save.json" = .error (.malformed "save.json" cause)) ∧
    (∃ cause, load (disk []) "save.json" = .error (.malformed "save.json" cause)) ∧
    load (disk (written ++ [10])) "save.json" = .ok s ∧
    load (disk (written ++ [48])) "save.json" = .error (.malformed "save.json" .trailingCharacters) := by
  intro s written disk
  obtain ⟨-, files⟩ := @torn_or_extended s (by decide)
  have found (text : List UInt8) : (disk text).find "save.json" = .ok (.file text) := rfl
  have some : written ≠ [] := by
    obtain ⟨text, spelled, -⟩ := Snapshot.bytes_eq (Snapshot.capture s)
    intro none
    cases spelled.symm.trans none
  have shorter : written.dropLast ≠ written := by
    intro same
    have length := congrArg List.length same
    rw [List.length_dropLast] at length
    have positive := List.length_pos_iff.mpr some
    omega
  refine ⟨?_, ?_, ?_, ?_⟩
  · exact (files _ _ _ (found written.dropLast)).1 (List.dropLast_prefix written) shorter
  · exact (files _ _ _ (found [])).1 List.nil_prefix some.symm
  · exact ((files _ _ _ (found (written ++ [10]))).2 [10] rfl).1 (by simp)
  · exact ((files _ _ _ (found (written ++ [48]))).2 [48] rfl).2 (by simp)

end WordMachine.Slot
