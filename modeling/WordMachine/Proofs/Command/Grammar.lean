import WordMachine.Command
import WordMachine.Proofs.Text.Blank
import WordMachine.Proofs.Text.Numeral

/-!
The grammar of console lines. A line that begins with `reg7` is judged by the last of its
tokens, which must be the numeral of a number of fifteen bits (`Command.Values`), and every
line denotes one command or one refusal (`Command.Denotes`). A line is read as what it
denotes (`Command.parse_eq_iff`).
-/
namespace WordMachine.Command

/-- The last token of a line that has two or more. -/
def LastToken (line : String) (token : List Char) : Prop :=
  ∃ before, before ≠ [] ∧ Text.Divides line.toList (before ++ [token])

/-- What becomes of the token that should be a value for the register. -/
inductive Values (token : List Char) : Except CommandError Command → Prop
  | register {value : Word} : Numeral.Writes token value.toNat → value.toNat ≤ 32767 →
      Values token (.ok (.setRegister7 value))
  | outOfRange {n : Nat} : Numeral.Writes token n → 32767 < n → n < 2 ^ 64 → Values token (.error (.outOfRange n))
  /-- The token is no numeral, or the numeral of a number that sixty-four bits do not hold. -/
  | invalid : (∀ n < 2 ^ 64, ¬ Numeral.Writes token n) →
      Values token (.error (.invalidValue (String.ofList token)))

/-- What a line asks for, or why it is refused. -/
inductive Denotes (line : String) : Except CommandError Command → Prop
  | save : "save".toList <+: line.toList → Denotes line (.ok .save)
  | load : "load".toList <+: line.toList → Denotes line (.ok .load)
  | missing {tokens : List (List Char)} : "reg7".toList <+: line.toList → Text.Divides line.toList tokens →
      tokens.length < 2 → Denotes line (.error .missingValue)
  | value {token : List Char} {result : Except CommandError Command} : "reg7".toList <+: line.toList →
      LastToken line token → Values token result → Denotes line result
  | input : ¬ "save".toList <+: line.toList → ¬ "load".toList <+: line.toList → ¬ "reg7".toList <+: line.toList →
      Denotes line (.ok (.input line))

variable {line : String} {token : List Char} {tokens : List (List Char)} {result : Except CommandError Command}

theorem beginsWith_iff {start : String} : beginsWith start line = true ↔ start.toList <+: line.toList :=
  List.isPrefixOf_iff_prefix

/-- A line does not begin with two words of one length. -/
theorem beginsWith_eq_false (other : String) {start : String} (begins : start.toList <+: line.toList)
    (long : start.toList.length = other.toList.length) (apart : start ≠ other) : beginsWith other line = false := by
  rw [← Bool.not_eq_true, beginsWith_iff]
  intro also
  have prefixes := List.prefix_of_prefix_length_le begins also (Nat.le_of_eq long)
  exact apart (String.toList_inj.mp (prefixes.eq_of_length long))

/-! ### The value of a register -/

theorem ofTokens_of_invalid (last : tokens.getLast? = some token) (invalid : ∀ n < 2 ^ 64, ¬ Numeral.Writes token n) :
    ofTokens tokens = .error (.invalidValue (String.ofList token)) := by
  rw [ofTokens, last]
  cases read : Numeral.parse64 token with
  | error refusal => simp only [read]
  | ok n =>
    obtain ⟨writes, held⟩ := Numeral.parse64_eq_ok_iff.mp read
    exact absurd writes (invalid n held)

theorem ofTokens_of_writes {n : Nat} (last : tokens.getLast? = some token) (writes : Numeral.Writes token n)
    (held : n < 2 ^ 64) : ofTokens tokens
      = if n ≤ 32767 then .ok (.setRegister7 (UInt16.ofNat n)) else .error (.outOfRange n) := by
  have read : Numeral.parse64 token = .ok n := Numeral.parse64_eq_ok_iff.mpr ⟨writes, held⟩
  rw [ofTokens, last]
  simp only [read]
  rfl

/-- The last token is judged as it says. -/
theorem ofTokens_eq_iff (last : tokens.getLast? = some token) : ofTokens tokens = result ↔ Values token result := by
  constructor
  · rintro rfl
    by_cases numeral : ∃ n < 2 ^ 64, Numeral.Writes token n
    · obtain ⟨n, held, writes⟩ := numeral
      rw [ofTokens_of_writes last writes held]
      by_cases small : n ≤ 32767
      · have same : (UInt16.ofNat n).toNat = n := UInt16.toNat_ofNat_of_lt' (by change n < 65536; omega)
        rw [if_pos small]
        exact .register (by rwa [same]) (by rwa [same])
      · rw [if_neg small]
        exact .outOfRange writes (Nat.lt_of_not_le small) held
    · have invalid : ∀ n < 2 ^ 64, ¬ Numeral.Writes token n := fun n held writes => numeral ⟨n, held, writes⟩
      rw [ofTokens_of_invalid last invalid]
      exact .invalid invalid
  · intro values
    cases values with
    | register writes small =>
      rw [ofTokens_of_writes last writes (by omega), if_pos small, UInt16.ofNat_toNat]
    | outOfRange writes great held =>
      rw [ofTokens_of_writes last writes held, if_neg (Nat.not_le_of_lt great)]
    | invalid invalid => exact ofTokens_of_invalid last invalid

/-! ### Tokens -/

theorem getLast?_tail_eq_none_iff : tokens.tail.getLast? = none ↔ tokens.length < 2 := by
  rw [List.getLast?_eq_none_iff, ← List.length_eq_zero_iff, List.length_tail]
  omega

theorem getLast?_tail_eq_some_iff : tokens.tail.getLast? = some token ↔ ∃ before, before ≠ [] ∧ tokens = before ++ [token] := by
  cases tokens with
  | nil => simp
  | cons first rest =>
    rw [List.tail_cons, List.getLast?_eq_some_iff]
    constructor
    · rintro ⟨before, rfl⟩
      exact ⟨first :: before, List.cons_ne_nil first before, rfl⟩
    · rintro ⟨_ | ⟨_, before⟩, some, split⟩
      · exact absurd rfl some
      · exact ⟨before, (List.cons.inj split).2⟩

theorem lastToken_iff : LastToken line token ↔ (Text.tokens line.toList).tail.getLast? = some token := by
  rw [getLast?_tail_eq_some_iff]
  constructor
  · rintro ⟨before, some, divides⟩
    exact ⟨before, some, Text.tokens_eq_iff.mpr divides⟩
  · rintro ⟨before, some, same⟩
    exact ⟨before, some, Text.tokens_eq_iff.mp same⟩

/-! ### Lines -/

theorem parse_of_register (begins : "reg7".toList <+: line.toList) :
    parse line = ofTokens (Text.tokens line.toList).tail := by
  rw [parse, beginsWith_eq_false "save" begins (by simp) (by decide), beginsWith_eq_false "load" begins (by simp) (by decide),
    beginsWith_iff.mpr begins]
  rfl

/-- Every line denotes what it is read as. -/
theorem denotes_parse (line : String) : Denotes line (parse line) := by
  by_cases saves : "save".toList <+: line.toList
  · rw [parse, if_pos (beginsWith_iff.mpr saves)]
    exact .save saves
  by_cases loads : "load".toList <+: line.toList
  · rw [parse, if_neg (mt beginsWith_iff.mp saves), if_pos (beginsWith_iff.mpr loads)]
    exact .load loads
  by_cases sets : "reg7".toList <+: line.toList
  · rw [parse_of_register sets]
    cases last : (Text.tokens line.toList).tail.getLast? with
    | none =>
      rw [ofTokens, last]
      exact .missing sets (Text.tokens_eq_iff.mp rfl) (getLast?_tail_eq_none_iff.mp last)
    | some token => exact .value sets (lastToken_iff.mpr last) ((ofTokens_eq_iff last).mp rfl)
  · rw [parse, if_neg (mt beginsWith_iff.mp saves), if_neg (mt beginsWith_iff.mp loads),
      if_neg (mt beginsWith_iff.mp sets)]
    exact .input saves loads sets

theorem denotes_of_parse (parsed : parse line = result) : Denotes line result := by
  rw [← parsed]
  exact denotes_parse line

/-- Only a line that begins with `save` saves. -/
theorem beginsWith_of_parse_save (parsed : parse line = .ok .save) : beginsWith "save" line = true := by
  cases denotes_of_parse parsed with
  | save begins => exact beginsWith_iff.mpr begins
  | value _ _ values => cases values

/-- Only a line that begins with `load` loads. -/
theorem beginsWith_of_parse_load (parsed : parse line = .ok .load) : beginsWith "load" line = true := by
  cases denotes_of_parse parsed with
  | load begins => exact beginsWith_iff.mpr begins
  | value _ _ values => cases values

/-- The value of a `reg7` that is accepted has fifteen bits. -/
theorem lt_of_parse_setRegister7 {value : Word} (parsed : parse line = .ok (.setRegister7 value)) :
    value.toNat < 32768 := by
  cases denotes_of_parse parsed with
  | value _ _ values =>
    cases values with
    | register _ small => exact Nat.lt_succ_of_le small

/-- Only a whole line is input. -/
theorem eq_of_parse_input {text : String} (parsed : parse line = .ok (.input text)) : text = line := by
  cases denotes_of_parse parsed with
  | value _ _ values => cases values
  | input _ _ _ => rfl

/-- A line is read as what it denotes, and every line denotes one thing. -/
theorem parse_eq_iff (line : String) (result : Except CommandError Command) :
    parse line = result ↔ Denotes line result := by
  refine ⟨denotes_of_parse, fun denotes => ?_⟩
  cases denotes with
  | save begins => rw [parse, if_pos (beginsWith_iff.mpr begins)]
  | load begins =>
    rw [parse, beginsWith_eq_false "save" begins (by simp) (by decide), beginsWith_iff.mpr begins]
    rfl
  | @missing tokens begins divides few =>
    have none : tokens.tail.getLast? = none := getLast?_tail_eq_none_iff.mpr few
    rw [parse_of_register begins, Text.tokens_eq_iff.mpr divides, ofTokens, none]
  | value begins last values =>
    rw [parse_of_register begins]
    exact (ofTokens_eq_iff (lastToken_iff.mp last)).mpr values
  | input saves loads sets =>
    rw [parse, if_neg (mt beginsWith_iff.mp saves), if_neg (mt beginsWith_iff.mp loads),
      if_neg (mt beginsWith_iff.mp sets)]

example : parse " save" = .ok (.input " save") := rfl

example : parse "reg7\u2003-1\u3000+0032767 " = .ok (.setRegister7 32767) := by decide +kernel

end WordMachine.Command
