import Mathlib.Data.List.Infix
import Mathlib.Data.List.TakeDrop

/-!
# SQL LIKE

The pattern language of `LIKE` with the backslash as its escape character: `%` takes any sequence of
characters, `_` any one character, and a backslash makes the character behind it stand for itself.
A pattern that ends in a lone backslash is ill formed and raises an error.

`escape` protects a text by a backslash before each special character.  Between two `%` it finds
exactly the texts it occurs in (`like_escape`).
-/

namespace A2aAgentLayer.Lib.LikePattern

/-- One part of a pattern. -/
inductive Token where
  | sequence
  | single
  | exact (c : Char)
  deriving DecidableEq, Repr

/-- The parts of a pattern, unless it is ill formed. -/
def tokens : List Char → Option (List Token)
  | [] => some []
  | '\\' :: [] => none
  | '\\' :: c :: rest => (tokens rest).map (Token.exact c :: ·)
  | '%' :: rest => (tokens rest).map (Token.sequence :: ·)
  | '_' :: rest => (tokens rest).map (Token.single :: ·)
  | c :: rest => (tokens rest).map (Token.exact c :: ·)

/-- The whole text comes out of the parts. -/
def matchTokens : List Token → List Char → Bool
  | [], text => text.isEmpty
  | .sequence :: rest, text => text.tails.any (matchTokens rest)
  | .single :: _, [] => false
  | .single :: rest, _ :: text => matchTokens rest text
  | .exact _ :: _, [] => false
  | .exact c :: rest, d :: text => c == d && matchTokens rest text

/-- `text LIKE pattern`; `none` is the error of an ill-formed pattern. -/
def like (pattern text : List Char) : Option Bool :=
  (tokens pattern).map (matchTokens · text)

def isSpecial (c : Char) : Bool := c == '\\' || c == '%' || c == '_'

/-- A character as a pattern writes it when it stands for itself. -/
def escapeChar (c : Char) : List Char := if isSpecial c then ['\\', c] else [c]

def escape (text : List Char) : List Char := text.flatMap escapeChar

theorem escape_cons (c : Char) (text : List Char) :
    escape (c :: text) = escapeChar c ++ escape text := rfl

/-! ### Reading an escaped text -/

theorem tokens_sequence (rest : List Char) :
    tokens ('%' :: rest) = (tokens rest).map (Token.sequence :: ·) := by
  rw [tokens]

theorem tokens_escapeChar (c : Char) (rest : List Char) :
    tokens (escapeChar c ++ rest) = (tokens rest).map (Token.exact c :: ·) := by
  unfold escapeChar
  by_cases hc : isSpecial c = true
  · rw [if_pos hc]
    rfl
  · rw [if_neg hc]
    simp only [isSpecial, Bool.or_eq_true, beq_iff_eq, not_or] at hc
    show tokens (c :: rest) = _
    rw [tokens]
    · intro h _
      exact hc.1.1 h
    · intro _ _ h _
      exact hc.1.1 h
    · intro h
      exact absurd h hc.1.2
    · intro h
      exact absurd h hc.2

theorem tokens_escape (text rest : List Char) :
    tokens (escape text ++ rest) = (tokens rest).map (text.map Token.exact ++ ·) := by
  induction text with
  | nil =>
      show tokens rest = _
      simp
  | cons c text ih =>
      rw [escape_cons, List.append_assoc, tokens_escapeChar, ih, Option.map_map]
      rfl

/-! ### What the parts match -/

theorem matchTokens_exact (word : List Char) (rest : List Token) (text : List Char) :
    matchTokens (word.map Token.exact ++ rest) text = true
      ↔ ∃ after, text = word ++ after ∧ matchTokens rest after = true := by
  induction word generalizing text with
  | nil => simp
  | cons c word ih =>
      cases text with
      | nil => simp [matchTokens]
      | cons d text =>
          rw [List.map_cons, List.cons_append, matchTokens, Bool.and_eq_true, beq_iff_eq, ih]
          constructor
          · rintro ⟨rfl, after, rfl, hafter⟩
            exact ⟨after, rfl, hafter⟩
          · rintro ⟨after, htext, hafter⟩
            obtain ⟨rfl, rfl⟩ := List.cons.inj htext
            exact ⟨rfl, after, rfl, hafter⟩

theorem matchTokens_sequence (rest : List Token) (text : List Char) :
    matchTokens (.sequence :: rest) text = true
      ↔ ∃ before after, text = before ++ after ∧ matchTokens rest after = true := by
  rw [matchTokens, List.any_eq_true]
  constructor
  · rintro ⟨after, hafter, hmatch⟩
    obtain ⟨before, rfl⟩ := (List.mem_tails after text).mp hafter
    exact ⟨before, after, rfl, hmatch⟩
  · rintro ⟨before, after, rfl, hmatch⟩
    exact ⟨after, (List.mem_tails after _).mpr (List.suffix_append before after), hmatch⟩

theorem matchTokens_sequence_alone (text : List Char) :
    matchTokens [.sequence] text = true := by
  rw [matchTokens_sequence]
  exact ⟨text, [], (List.append_nil text).symm, rfl⟩

/-- A text between two `%`, its special characters escaped, is searched for literally. -/
theorem like_escape (word text : List Char) :
    like ('%' :: (escape word ++ ['%'])) text = some (decide (word <:+: text)) := by
  have hread : tokens ('%' :: (escape word ++ ['%']))
      = some (.sequence :: (word.map Token.exact ++ [.sequence])) := by
    rw [tokens_sequence, tokens_escape]
    rfl
  have hmatch : matchTokens (.sequence :: (word.map Token.exact ++ [.sequence])) text = true
      ↔ word <:+: text := by
    rw [matchTokens_sequence]
    constructor
    · rintro ⟨before, after, rfl, h⟩
      obtain ⟨rest, rfl, -⟩ := (matchTokens_exact word [.sequence] after).mp h
      exact ⟨before, rest, List.append_assoc before word rest⟩
    · rintro ⟨before, rest, rfl⟩
      refine ⟨before, word ++ rest, List.append_assoc before word rest, ?_⟩
      rw [matchTokens_exact]
      exact ⟨rest, rfl, matchTokens_sequence_alone rest⟩
  rw [like, hread, Option.map_some]
  exact congrArg some (Bool.eq_iff_iff.mpr (by rw [hmatch, decide_eq_true_iff]))

end A2aAgentLayer.Lib.LikePattern
