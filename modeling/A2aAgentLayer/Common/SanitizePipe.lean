import A2aAgentLayer.Common.FieldValidators
import A2aAgentLayer.Lib.JsText
import A2aAgentLayer.Lib.Delimiter
import A2aAgentLayer.Lib.JsonRewrite
import A2aAgentLayer.Lib.TextPieces

/-!
# The sanitizing pipe

`SanitizePipe` rewrites every string of a request body: it takes out tags, undoes three entities,
takes out `javascript:` and inline event handlers, and trims.  Objects are rebuilt by assignment, so
a member named `__proto__` does not come back.

A string that comes back unchanged is one in which none of this occurs (`Clean`).
-/

namespace A2aAgentLayer.Common.SanitizePipe

open A2aAgentLayer.Lib.Utf16 A2aAgentLayer.Lib.JsText A2aAgentLayer.Lib.Delimiter
open A2aAgentLayer.Lib.TextReplace A2aAgentLayer.Lib.TextPieces
open A2aAgentLayer.Lib.JsonTree A2aAgentLayer.Lib.JsObject A2aAgentLayer.Lib.JsonRewrite
open A2aAgentLayer.Common.FieldValidators

/-! ### The patterns -/

/-- How the `i` flag compares units: letters of ASCII in lower case. -/
def lower (u : CodeUnit) : CodeUnit := if isUpper u then u + 32 else u

/-- `\w`. -/
def isWord (u : CodeUnit) : Bool := isLower u || isUpper u || isDigitUnit u || u == unit '_'

/-- `/<[^>]*>/`. -/
def tagAt : JsString → Option ℕ
  | [] => none
  | u :: rest => if u = unit '<' then (rest.idxOf? (unit '>')).map (· + 2) else none

/-- A literal text. -/
def literalAt (literal s : JsString) : Option ℕ :=
  if s.take literal.length = literal then some literal.length else none

/-- A literal text in lower case, with the `i` flag. -/
def caselessAt (literal s : JsString) : Option ℕ :=
  if (s.take literal.length).map lower = literal then some literal.length else none

/-- `/on\w+\s*=/i`.  The three classes are disjoint, so each repetition takes all it can. -/
def handlerAt : JsString → Option ℕ
  | o :: n :: rest =>
      let word := rest.takeWhile isWord
      let spaces := (rest.dropWhile isWord).takeWhile isSpace
      if lower o = unit 'o' ∧ lower n = unit 'n' ∧ word ≠ []
          ∧ ((rest.dropWhile isWord).dropWhile isSpace).head? = some (unit '=') then
        some (word.length + spaces.length + 3)
      else none
  | _ => none

theorem tagAt_eq_some {s : JsString} {n : ℕ} (h : tagAt s = some n) :
    ∃ rest i, s = unit '<' :: rest ∧ rest.idxOf? (unit '>') = some i ∧ n = i + 2 := by
  cases s with
  | nil => cases h
  | cons u rest =>
      rw [tagAt] at h
      split_ifs at h with hu
      obtain ⟨i, hi, rfl⟩ := Option.map_eq_some_iff.mp h
      exact ⟨rest, i, by rw [hu], hi, rfl⟩

def tag : Replacement CodeUnit where
  matchAt := tagAt
  value := []
  shrinks s n h := by
    obtain ⟨rest, i, rfl, hi, rfl⟩ := tagAt_eq_some h
    obtain ⟨hlt, -⟩ := List.idxOf?_eq_some_iff.mp hi
    simp only [List.length_nil, List.length_cons]
    omega

/-- Every occurrence of a literal, replaced by something shorter. -/
def literal (text value : JsString) (h : value.length < text.length) : Replacement CodeUnit where
  matchAt := literalAt text
  value := value
  shrinks s n hmatch := by
    rw [literalAt] at hmatch
    split_ifs at hmatch with htake
    obtain rfl := Option.some.inj hmatch
    have hlen := congrArg List.length htake
    rw [List.length_take] at hlen
    omega

def scheme : Replacement CodeUnit where
  matchAt := caselessAt (js "javascript:")
  value := []
  shrinks s n hmatch := by
    rw [caselessAt] at hmatch
    split_ifs at hmatch with htake
    obtain rfl := Option.some.inj hmatch
    have hlen := congrArg List.length htake
    rw [List.length_map, List.length_take] at hlen
    have hpos : 0 < (js "javascript:").length := by decide
    rw [List.length_nil]
    omega

theorem handlerAt_eq_some {s : JsString} {k : ℕ} (h : handlerAt s = some k) :
    ∃ o n word spaces rest, s = o :: n :: (word ++ (spaces ++ unit '=' :: rest))
      ∧ lower o = unit 'o' ∧ lower n = unit 'n' ∧ word ≠ [] ∧ (∀ u ∈ word, isWord u = true)
      ∧ (∀ u ∈ spaces, isSpace u = true) ∧ k = word.length + spaces.length + 3 := by
  match s, h with
  | o :: n :: rest, h =>
      simp only [handlerAt] at h
      split_ifs at h with hconds
      obtain ⟨ho, hn, hword, hequals⟩ := hconds
      obtain ⟨tail, htail⟩ := List.head?_eq_some_iff.mp hequals
      refine ⟨o, n, rest.takeWhile isWord, (rest.dropWhile isWord).takeWhile isSpace, tail, ?_, ho,
        hn, hword, fun u hu => List.mem_takeWhile_imp hu, fun u hu => List.mem_takeWhile_imp hu,
        (Option.some.inj h).symm⟩
      rw [← htail, List.takeWhile_append_dropWhile, List.takeWhile_append_dropWhile]

def handler : Replacement CodeUnit where
  matchAt := handlerAt
  value := []
  shrinks s k h := by
    obtain ⟨o, n, word, spaces, rest, rfl, -, -, -, -, -, rfl⟩ := handlerAt_eq_some h
    simp only [List.length_nil, List.length_cons, List.length_append]
    omega

/-- The replacements, in the order of the source. -/
def stages : List (Replacement CodeUnit) :=
  [tag, literal (js "&lt;") (js "<") (by decide), literal (js "&gt;") (js ">") (by decide),
    literal (js "&amp;") (js "&") (by decide), scheme, handler]

def stripHtml (input : JsString) : JsString := replaceEach stages input

/-- What becomes of a string. -/
def sanitizeString (s : JsString) : JsString := trim (stripHtml s)

example : sanitizeString (js " <b>1 &lt; 2</b> JavaScript:x oNload =y")
    = js "1 < 2 x y" := by decide

/-! ### The texts that match -/

/-- `<`, no `>`, and a `>`. -/
def IsTag (m : JsString) : Prop := ∃ b, unit '>' ∉ b ∧ m = unit '<' :: (b ++ [unit '>'])

/-- `javascript:` in any case. -/
def IsScheme (m : JsString) : Prop := m.map lower = js "javascript:"

/-- `on` in any case, a word, spaces and `=`. -/
def IsHandler (m : JsString) : Prop :=
  ∃ o n word spaces, m = o :: n :: (word ++ (spaces ++ [unit '='])) ∧ lower o = unit 'o'
    ∧ lower n = unit 'n' ∧ word ≠ [] ∧ (∀ u ∈ word, isWord u = true)
    ∧ ∀ u ∈ spaces, isSpace u = true

theorem matchesAre_tag : MatchesAre tag IsTag := by
  intro s n
  constructor
  · intro h
    obtain ⟨rest, i, rfl, hi, rfl⟩ := tagAt_eq_some h
    obtain ⟨b, c, rfl, hb, rfl⟩ := idxOf?_eq_some_iff_append.mp hi
    have htake : (unit '<' :: (b ++ unit '>' :: c)).take (b.length + 2)
        = unit '<' :: (b ++ [unit '>']) := by
      rw [List.take_succ_cons, List.take_append, List.take_of_length_le (by omega),
        Nat.add_sub_cancel_left]
      rfl
    rw [htake]
    exact ⟨by simp, b, hb, rfl⟩
  · rintro ⟨hn, b, hb, htake⟩
    have hsplit := List.take_append_drop n s
    have hlen := congrArg List.length htake
    rw [List.length_take, Nat.min_eq_left hn, List.length_cons, List.length_append,
      List.length_singleton] at hlen
    rw [htake] at hsplit
    show tagAt s = some n
    rw [← hsplit, List.cons_append, tagAt, if_pos rfl, Option.map_eq_some_iff]
    refine ⟨b.length, idxOf?_eq_some_iff_append.mpr ⟨b, s.drop n, ?_, hb, rfl⟩, by omega⟩
    rw [List.append_assoc]
    rfl

theorem matchesAre_literal {text value : JsString} (hlt : value.length < text.length) :
    MatchesAre (literal text value hlt) (· = text) := by
  intro s n
  show literalAt text s = some n ↔ n ≤ s.length ∧ s.take n = text
  rw [literalAt]
  constructor
  · intro h
    split_ifs at h with htake
    obtain rfl := Option.some.inj h
    have hlen := congrArg List.length htake
    rw [List.length_take] at hlen
    exact ⟨by omega, htake⟩
  · rintro ⟨hn, htake⟩
    have hlen := congrArg List.length htake
    rw [List.length_take, Nat.min_eq_left hn] at hlen
    rw [← hlen, if_pos htake]

theorem matchesAre_scheme : MatchesAre scheme IsScheme := by
  intro s n
  show caselessAt (js "javascript:") s = some n ↔ n ≤ s.length ∧ IsScheme (s.take n)
  rw [caselessAt, IsScheme]
  constructor
  · intro h
    split_ifs at h with htake
    obtain rfl := Option.some.inj h
    have hlen := congrArg List.length htake
    rw [List.length_map, List.length_take] at hlen
    exact ⟨by omega, htake⟩
  · rintro ⟨hn, htake⟩
    have hlen := congrArg List.length htake
    rw [List.length_map, List.length_take, Nat.min_eq_left hn] at hlen
    rw [← hlen, if_pos htake]

theorem toNat_of_isWord {u : CodeUnit} (h : isWord u = true) :
    48 ≤ u.toNat ∧ u.toNat ≤ 122 := by
  simp only [isWord, isLower_iff, isUpper_iff, isDigitUnit_iff, Bool.or_eq_true, beq_iff_eq] at h
  rcases h with ((h | h) | h) | rfl
  · omega
  · omega
  · omega
  · decide

theorem not_isWord_of_isSpace {u : CodeUnit} (h : isSpace u = true) : isWord u = false := by
  by_contra hword
  have hnat := toNat_of_isWord (Bool.not_eq_false _ |>.mp hword)
  rw [isSpace_of_visible (by omega) (by omega)] at h
  cases h

theorem handlerAt_of_parts {o n : CodeUnit} {word spaces c : JsString} (ho : lower o = unit 'o')
    (hn : lower n = unit 'n') (hne : word ≠ []) (hword : ∀ u ∈ word, isWord u = true)
    (hspaces : ∀ u ∈ spaces, isSpace u = true) :
    handlerAt (o :: n :: (word ++ (spaces ++ unit '=' :: c)))
      = some (word.length + spaces.length + 3) := by
  have hbehind : ∀ h : spaces ++ unit '=' :: c ≠ [],
      isWord ((spaces ++ unit '=' :: c).head h) = false := by
    intro h
    cases spaces with
    | nil => exact (by decide : isWord (unit '=') = false)
    | cons u spaces => exact not_isWord_of_isSpace (hspaces u (List.mem_cons_self ..))
  have hequals : ∀ h : unit '=' :: c ≠ [], isSpace ((unit '=' :: c).head h) = false := fun _ =>
    (by decide : isSpace (unit '=') = false)
  obtain ⟨hword, hrest⟩ := span_append hword hbehind
  obtain ⟨hspaces, htail⟩ := span_append hspaces hequals
  simp only [handlerAt, hword, hrest, hspaces, htail]
  rw [if_pos ⟨ho, hn, hne, rfl⟩]

theorem matchesAre_handler : MatchesAre handler IsHandler := by
  intro s k
  constructor
  · intro h
    obtain ⟨o, n, word, spaces, rest, rfl, ho, hn, hne, hword, hspaces, rfl⟩ := handlerAt_eq_some h
    have hsplit : o :: n :: (word ++ (spaces ++ unit '=' :: rest))
        = (o :: n :: (word ++ (spaces ++ [unit '=']))) ++ rest := by simp
    have hlen : (o :: n :: (word ++ (spaces ++ [unit '=']))).length
        = word.length + spaces.length + 3 := by
      simp only [List.length_cons, List.length_append, List.length_nil]
      omega
    rw [hsplit, ← hlen, List.take_left]
    exact ⟨by rw [List.length_append]; omega, o, n, word, spaces, rfl, ho, hn, hne, hword, hspaces⟩
  · rintro ⟨hk, o, n, word, spaces, htake, ho, hn, hne, hword, hspaces⟩
    have hsplit := List.take_append_drop k s
    have hlen := congrArg List.length htake
    simp only [List.length_take, Nat.min_eq_left hk, List.length_cons, List.length_append,
      List.length_nil] at hlen
    have hparts : s = o :: n :: (word ++ (spaces ++ unit '=' :: s.drop k)) := by
      rw [htake] at hsplit
      exact hsplit.symm.trans (by simp)
    show handlerAt s = some k
    rw [hparts, handlerAt_of_parts ho hn hne hword hspaces, Option.some.injEq]
    omega

/-! ### Strings that come back unchanged -/

/-- Nothing in the string is taken out, replaced or trimmed. -/
structure Clean (s : JsString) : Prop where
  trimmed : Trimmed s
  noTag : ∀ a b c, s ≠ a ++ unit '<' :: (b ++ unit '>' :: c)
  noEntity : ∀ entity ∈ [js "&lt;", js "&gt;", js "&amp;"], ¬ entity <:+: s
  noScheme : ∀ t, t <:+: s → t.map lower ≠ js "javascript:"
  noHandler : ∀ a o n word spaces c, s = a ++ o :: n :: (word ++ (spaces ++ unit '=' :: c)) →
    lower o = unit 'o' → lower n = unit 'n' → word ≠ [] → (∀ u ∈ word, isWord u = true) →
    ¬ ∀ u ∈ spaces, isSpace u = true

theorem unmatched_tag_iff {s : JsString} :
    Unmatched tag s ↔ ∀ a b c, s ≠ a ++ unit '<' :: (b ++ unit '>' :: c) := by
  constructor
  · rintro h a b c rfl
    have hnone : tagAt (unit '<' :: (b ++ unit '>' :: c)) = none := h _ (List.suffix_append a _)
    rw [tagAt, if_pos rfl, Option.map_eq_none_iff, List.idxOf?_eq_none_iff] at hnone
    exact hnone (List.mem_append_right b (List.mem_cons_self ..))
  · intro h
    rw [matchesAre_tag.unmatched_iff]
    rintro m ⟨b, -, rfl⟩ ⟨a, c, rfl⟩
    exact h a b c (by simp)

theorem unmatched_literal_iff {text value : JsString} (hlt : value.length < text.length)
    {s : JsString} : Unmatched (literal text value hlt) s ↔ ¬ text <:+: s := by
  rw [(matchesAre_literal hlt).unmatched_iff]
  constructor
  · exact fun h => h text rfl
  · rintro h m rfl
    exact h

theorem unmatched_scheme_iff {s : JsString} :
    Unmatched scheme s ↔ ∀ t, t <:+: s → t.map lower ≠ js "javascript:" := by
  rw [matchesAre_scheme.unmatched_iff]
  exact forall_congr' fun m => imp_not_comm

theorem unmatched_handler_iff {s : JsString} :
    Unmatched handler s ↔ ∀ a o n word spaces c,
      s = a ++ o :: n :: (word ++ (spaces ++ unit '=' :: c)) → lower o = unit 'o' →
      lower n = unit 'n' → word ≠ [] → (∀ u ∈ word, isWord u = true) →
      ¬ ∀ u ∈ spaces, isSpace u = true := by
  rw [matchesAre_handler.unmatched_iff]
  constructor
  · rintro h a o n word spaces c rfl ho hn hne hword hspaces
    exact h _ ⟨o, n, word, spaces, rfl, ho, hn, hne, hword, hspaces⟩ ⟨a, c, by simp⟩
  · rintro h m ⟨o, n, word, spaces, rfl, ho, hn, hne, hword, hspaces⟩ ⟨a, c, rfl⟩
    exact h a o n word spaces c (by simp) ho hn hne hword hspaces

/-- A letter or a digit of ASCII. -/
def isAlphanumeric (u : CodeUnit) : Bool := isLower u || isUpper u || isDigitUnit u

theorem toNat_of_isAlphanumeric {u : CodeUnit} (h : isAlphanumeric u = true) :
    (48 ≤ u.toNat ∧ u.toNat ≤ 57) ∨ (65 ≤ u.toNat ∧ u.toNat ≤ 90)
      ∨ (97 ≤ u.toNat ∧ u.toNat ≤ 122) := by
  simp only [isAlphanumeric, isLower_iff, isUpper_iff, isDigitUnit_iff, Bool.or_eq_true] at h
  omega

theorem toNat_lower (u : CodeUnit) :
    (lower u).toNat = if isUpper u then u.toNat + 32 else u.toNat := by
  rw [lower]
  split_ifs with hu
  · exact toNat_add_of_isUpper hu
  · rfl

theorem lower_eq_self_iff {u : CodeUnit} : lower u = u ↔ isUpper u = false := by
  rw [← UInt16.toNat_inj, toNat_lower]
  cases isUpper u with
  | true => exact iff_of_false (by simp) (by simp)
  | false => exact iff_of_true (by simp) rfl

/-- A string of letters and digits is clean. -/
theorem clean_of_alphanumeric {s : JsString} (h : ∀ u ∈ s, isAlphanumeric u = true) : Clean s := by
  have hnot : ∀ u ∈ s, u ≠ unit '<' ∧ u ≠ unit '&' ∧ u ≠ unit '=' ∧ lower u ≠ unit ':'
      ∧ isSpace u = false := by
    intro u hu
    have hnat := toNat_of_isAlphanumeric (h u hu)
    have hne : ∀ v : CodeUnit, u.toNat ≠ v.toNat → u ≠ v := fun _ => ne_of_apply_ne UInt16.toNat
    refine ⟨hne _ ?_, hne _ ?_, hne _ ?_, fun hcolon => ?_, isSpace_of_visible ?_ ?_⟩
    · rw [show (unit '<').toNat = 60 from rfl]
      omega
    · rw [show (unit '&').toNat = 38 from rfl]
      omega
    · rw [show (unit '=').toNat = 61 from rfl]
      omega
    · have hlower := toNat_lower u
      rw [hcolon, show (unit ':').toNat = 58 from rfl] at hlower
      split_ifs at hlower
      · omega
      · omega
    · omega
    · omega
  refine ⟨⟨fun hs => (hnot _ (List.head_mem hs)).2.2.2.2,
    fun hs => (hnot _ (List.getLast_mem hs)).2.2.2.2⟩, ?_, ?_, ?_, ?_⟩
  · rintro a b c rfl
    exact (hnot _ (List.mem_append_right a (List.mem_cons_self ..))).1 rfl
  · intro entity hentity hinside
    have hamp : ([js "&lt;", js "&gt;", js "&amp;"].all fun e => e.contains (unit '&')) = true := by
      decide
    have hmem : unit '&' ∈ entity := by simpa using List.all_eq_true.mp hamp entity hentity
    exact (hnot _ (hinside.subset hmem)).2.1 rfl
  · intro t hinside hlower
    have hmem : unit ':' ∈ t.map lower := by
      rw [hlower]
      exact List.contains_iff_mem.mp (by decide)
    obtain ⟨u, hu, hcolon⟩ := List.mem_map.mp hmem
    exact (hnot u (hinside.subset hu)).2.2.2.1 hcolon
  · rintro a o n word spaces c rfl - - - - -
    have hmem : unit '=' ∈ a ++ o :: n :: (word ++ (spaces ++ unit '=' :: c)) := by simp
    exact (hnot _ hmem).2.2.1 rfl

/-- **The strings that come back unchanged are the clean ones.** -/
theorem sanitizeString_eq_self_iff {s : JsString} : sanitizeString s = s ↔ Clean s := by
  have hsplit : sanitizeString s = s ↔ stripHtml s = s ∧ trim s = s := by
    constructor
    · intro h
      -- neither step makes a string longer
      have hlen : s.length ≤ (stripHtml s).length := by
        have hle := length_trim_le (stripHtml s)
        rw [← sanitizeString, h] at hle
        exact hle
      have hstrip : stripHtml s = s := replaceEach_eq_self_iff.mpr (unmatched_of_length hlen)
      refine ⟨hstrip, ?_⟩
      rw [sanitizeString, hstrip] at h
      exact h
    · rintro ⟨hstrip, htrim⟩
      rw [sanitizeString, hstrip, htrim]
  rw [hsplit, stripHtml, replaceEach_eq_self_iff, trim_eq_self_iff]
  simp only [stages, List.forall_mem_cons, List.not_mem_nil, false_imp_iff, implies_true, and_true,
    unmatched_tag_iff, unmatched_literal_iff, unmatched_scheme_iff, unmatched_handler_iff]
  constructor
  · rintro ⟨⟨htag, hlt, hgt, hamp, hscheme, hhandler⟩, htrimmed⟩
    refine ⟨htrimmed, htag, ?_, hscheme, hhandler⟩
    simp only [List.forall_mem_cons, List.not_mem_nil, false_imp_iff, implies_true, and_true]
    exact ⟨hlt, hgt, hamp⟩
  · intro h
    have hentity := h.noEntity
    simp only [List.forall_mem_cons, List.not_mem_nil, false_imp_iff, implies_true, and_true]
      at hentity
    exact ⟨⟨h.noTag, hentity.1, hentity.2.1, hentity.2.2, h.noScheme, h.noHandler⟩, h.trimmed⟩

/-! ### The pipe -/

mutual

def sanitize : Json → Json
  | .str s => .str (sanitizeString s)
  | .arr elements => .arr (sanitizeElements elements)
  | .obj members =>
      .obj ((ownOrder (sanitizeMembers members)).foldl (fun acc m => assign acc m.1 m.2) [])
  | .null => .null
  | .bool b => .bool b
  | .num x => .num x

def sanitizeElements : List Json → List Json
  | [] => []
  | v :: rest => sanitize v :: sanitizeElements rest

/-- The entries of an object with every value sanitized already. -/
def sanitizeMembers : List (JsString × Json) → List (JsString × Json)
  | [] => []
  | (k, v) :: rest => (k, sanitize v) :: sanitizeMembers rest

end

theorem sanitize_arr (elements : List Json) :
    sanitize (.arr elements) = .arr (elements.map sanitize) := by
  have hmap : ∀ vs, sanitizeElements vs = vs.map sanitize := by
    intro vs
    induction vs with
    | nil => rfl
    | cons v vs ih => rw [sanitizeElements, ih, List.map_cons]
  rw [sanitize, hmap]

/-- An object comes back as its members other than `__proto__`, with sanitized values. -/
theorem sanitize_obj {members : List (JsString × Json)} (hnd : (members.map Prod.fst).Nodup) :
    sanitize (.obj members)
      = .obj ((ownOrder (members.map fun m => (m.1, sanitize m.2))).filter (·.1 ≠ protoKey)) := by
  have hmap : ∀ ms, sanitizeMembers ms = ms.map fun m => (m.1, sanitize m.2) := by
    intro ms
    induction ms with
    | nil => rfl
    | cons m ms ih => rw [sanitizeMembers, ih, List.map_cons]
  have hkeys : ((ownOrder (members.map fun m => (m.1, sanitize m.2))).map Prod.fst).Nodup := by
    refine ((ownOrder_perm _).map Prod.fst).nodup_iff.mpr ?_
    rw [List.map_map]
    exact hnd
  rw [sanitize, hmap, foldl_assign_members _ _ hkeys (by simp), List.nil_append]

/-- Members whose names are neither array indices nor `__proto__` keep their places. -/
theorem sanitize_named {members : List (JsString × Json)} (hnd : (members.map Prod.fst).Nodup)
    (hnamed : ∀ key ∈ members.map Prod.fst, arrayIndex key = none ∧ key ≠ protoKey) :
    sanitize (.obj members) = .obj (members.map fun m => (m.1, sanitize m.2)) := by
  have hkeys : (members.map fun m => (m.1, sanitize m.2)).map Prod.fst = members.map Prod.fst := by
    rw [List.map_map]
    rfl
  have hindex : ∀ key ∈ (members.map fun m => (m.1, sanitize m.2)).map Prod.fst,
      arrayIndex key = none := by
    rw [hkeys]
    exact fun key hkey => (hnamed key hkey).1
  rw [sanitize_obj hnd, ownOrder_of_named hindex, List.filter_eq_self.mpr]
  intro m hm
  have hkey := List.mem_map_of_mem (f := Prod.fst) hm
  rw [hkeys] at hkey
  simpa using (hnamed m.1 hkey).2

/-- **The pipe is a rewrite up to key order**: of every string, without the `__proto__` members. -/
theorem same_sanitize {j : Json} (h : j.UniqueKeys) :
    SameUpToKeyOrder (rewrite (fun k => decide (k ≠ protoKey)) sanitizeString j) (sanitize j) := by
  induction j using Json.induction with
  | null => exact same_refl _
  | bool b => exact same_refl _
  | num x => exact same_refl _
  | str s => exact same_refl _
  | arr elements ih =>
      rw [uniqueKeys_arr] at h
      rw [rewrite_arr, sanitize_arr, same_arr, List.forall₂_map_left_iff,
        List.forall₂_map_right_iff]
      exact List.forall₂_same.mpr fun v hv => ih v hv (h v hv)
  | obj members ih =>
      rw [uniqueKeys_obj] at h
      have hperm := (ownOrder_perm (members.map fun m => (m.1, sanitize m.2))).filter
        fun m => decide (m.1 ≠ protoKey)
      rw [rewrite_obj, sanitize_obj h.1, same_obj, keys_rewrite]
      refine ⟨?_, fun m hm => ?_⟩
      · have hkeys := hperm.map Prod.fst
        rw [List.filter_map, List.map_map] at hkeys
        rw [List.filter_map]
        exact hkeys.symm
      · obtain ⟨n, hn, rfl⟩ := List.mem_map.mp hm
        obtain ⟨hn, hproto⟩ := List.mem_filter.mp hn
        refine ⟨sanitize n.2, hperm.mem_iff.mpr (List.mem_filter.mpr ⟨?_, hproto⟩),
          ih n hn (h.2 n hn)⟩
        exact List.mem_map_of_mem (f := fun m => (m.1, sanitize m.2)) hn

theorem uniqueKeys_sanitize {j : Json} (h : j.UniqueKeys) : (sanitize j).UniqueKeys :=
  uniqueKeys_of_same (uniqueKeys_rewrite _ _ h) (same_sanitize h)

end A2aAgentLayer.Common.SanitizePipe
