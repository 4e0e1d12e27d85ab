import WordMachine.Text.Blank

/-!
The words of a line. `Divides` says how white space divides a text: a token is neither empty
nor has white space in it, and it ends where white space or the end of the text comes. Every
text is divided into its tokens, and in no other way (`tokens_eq_iff`).
-/
namespace WordMachine.Text

/-- The numbers of the twenty-five characters with the property White_Space. -/
def whiteSpace : List Nat :=
  List.range' 0x09 5 ++ [0x20, 0x85, 0xA0, 0x1680] ++ List.range' 0x2000 11 ++ [0x2028, 0x2029, 0x202F, 0x205F, 0x3000]

/-- A text and its tokens from left to right. -/
inductive Divides : List Char → List (List Char) → Prop
  | nothing : Divides [] []
  | blank {c : Char} {text : List Char} {tokens : List (List Char)} :
      c.toNat ∈ whiteSpace → Divides text tokens → Divides (c :: text) tokens
  | token {token text : List Char} {tokens : List (List Char)} :
      token ≠ [] → (∀ c ∈ token, c.toNat ∉ whiteSpace) → (∀ c ∈ text.head?, c.toNat ∈ whiteSpace) →
      Divides text tokens → Divides (token ++ text) (token :: tokens)

theorem isBlank_iff {c : Char} : isBlank c = true ↔ c.toNat ∈ whiteSpace := by
  rw [isBlank, whiteSpace]
  generalize c.toNat = n
  simp only [Bool.or_eq_true, Bool.and_eq_true, decide_eq_true_eq, beq_iff_eq, List.mem_append, List.mem_range'_1,
    List.mem_cons, List.not_mem_nil, or_false]
  omega

/-! ### Reading from the right -/

theorem extendTokens_solid {c : Char} (solid : c.toNat ∉ whiteSpace) (token : List Char) (later : List (List Char)) :
    extendTokens c (token, later) = (c :: token, later) := by
  have other : ¬ isBlank c = true := mt isBlank_iff.mp solid
  cases token with
  | nil => exact if_neg other
  | cons d token => exact if_neg other

theorem extendTokens_blank {c : Char} (blank : c.toNat ∈ whiteSpace) (text : List Char) :
    extendTokens c (text.foldr extendTokens ([], [])) = ([], tokens text) := by
  have white : isBlank c = true := isBlank_iff.mpr blank
  rw [tokens]
  rcases text.foldr extendTokens ([], []) with ⟨_ | ⟨d, token⟩, later⟩
  · exact if_pos white
  · exact if_pos white

theorem foldr_extendTokens_token {token : List Char} (solid : ∀ c ∈ token, c.toNat ∉ whiteSpace)
    (later : List (List Char)) : token.foldr extendTokens ([], later) = (token, later) := by
  induction token with
  | nil => rfl
  | cons c token ih =>
    obtain ⟨first, within⟩ := List.forall_mem_cons.mp solid
    rw [List.foldr_cons, ih within, extendTokens_solid first]

theorem tokens_blank {c : Char} (blank : c.toNat ∈ whiteSpace) (text : List Char) : tokens (c :: text) = tokens text := by
  rw [tokens, List.foldr_cons, extendTokens_blank blank]

/-- Before white space and at the end no token is being read. -/
theorem foldr_extendTokens_of_ended {text : List Char} (ended : ∀ c ∈ text.head?, c.toNat ∈ whiteSpace) :
    text.foldr extendTokens ([], []) = ([], tokens text) := by
  cases text with
  | nil => rfl
  | cons c text =>
    have blank := ended c rfl
    rw [List.foldr_cons, extendTokens_blank blank, tokens_blank blank]

theorem tokens_token {token text : List Char} (some : token ≠ []) (solid : ∀ c ∈ token, c.toNat ∉ whiteSpace)
    (ended : ∀ c ∈ text.head?, c.toNat ∈ whiteSpace) : tokens (token ++ text) = token :: tokens text := by
  obtain ⟨c, rest, rfl⟩ := List.exists_cons_of_ne_nil some
  rw [tokens, List.foldr_append, foldr_extendTokens_of_ended ended, foldr_extendTokens_token solid]

/-! ### Division -/

theorem tokens_of_divides {text : List Char} {found : List (List Char)} (divides : Divides text found) :
    tokens text = found := by
  induction divides with
  | nothing => rfl
  | blank blank _ ih => rw [tokens_blank blank, ih]
  | token some solid ended _ ih => rw [tokens_token some solid ended, ih]

/-- A character that is not white space begins a token, or goes before the first one. -/
theorem Divides.exists_cons {c : Char} {text : List Char} {found : List (List Char)} (divides : Divides text found)
    (solid : c.toNat ∉ whiteSpace) : ∃ more, Divides (c :: text) more := by
  have alone : ∀ d ∈ [c], d.toNat ∉ whiteSpace := by
    intro d among
    exact List.mem_singleton.mp among ▸ solid
  cases divides with
  | nothing => exact ⟨_, .token (List.cons_ne_nil c []) alone nofun .nothing⟩
  | blank blank divides =>
    refine ⟨_, .token (List.cons_ne_nil c []) alone ?_ (.blank blank divides)⟩
    rintro d ⟨⟩
    exact blank
  | @token token text tokens some within ended divides =>
    exact ⟨_, .token (List.cons_ne_nil c token) (List.forall_mem_cons.mpr ⟨solid, within⟩) ended divides⟩

theorem exists_divides (text : List Char) : ∃ found, Divides text found := by
  induction text with
  | nil => exact ⟨[], .nothing⟩
  | cons c text ih =>
    obtain ⟨found, divides⟩ := ih
    by_cases blank : c.toNat ∈ whiteSpace
    · exact ⟨found, .blank blank divides⟩
    · exact divides.exists_cons blank

/-- A text has the tokens that white space divides it into. -/
theorem tokens_eq_iff {text : List Char} {found : List (List Char)} : tokens text = found ↔ Divides text found := by
  constructor
  · rintro rfl
    obtain ⟨found, divides⟩ := exists_divides text
    rwa [tokens_of_divides divides]
  · exact tokens_of_divides

end WordMachine.Text
