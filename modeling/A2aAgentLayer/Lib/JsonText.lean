import A2aAgentLayer.Lib.JsonTree

/-!
# The text of a JSON value

`serialize` prints a value as `JSON.stringify` does without an indent, taking the members of an
object in the order of the list.  Strings are quoted with the escapes of `QuoteJSONString`: the
short ones, `\u` with four lower-case hexadecimal digits for the other control units and for lone
surrogates, everything else as it stands.

**`serialize_inj`**: a value is determined by its text.  The text of every value can be told apart
from what follows it inside an array or an object, so the proof cancels one printed value at a time.
-/

namespace A2aAgentLayer.Lib.JsonText

open A2aAgentLayer.Lib.Utf16 A2aAgentLayer.Lib.NumberText A2aAgentLayer.Lib.JsonTree

/-! ### Quoted strings -/

/-- A hexadecimal digit, in lower case. -/
def hexDigit (n : ℕ) : CodeUnit := if n < 10 then UInt16.ofNat (48 + n) else UInt16.ofNat (87 + n)

/-- The escape of a unit by its number. -/
def unicodeEscape (u : CodeUnit) : JsString :=
  [unit '\\', unit 'u', hexDigit (u.toNat / 4096), hexDigit (u.toNat / 256 % 16),
    hexDigit (u.toNat / 16 % 16), hexDigit (u.toNat % 16)]

/-- A unit that is no surrogate, inside a quoted string. -/
def escapeUnit (u : CodeUnit) : JsString :=
  if u = 0x08 then js "\\b"
  else if u = 0x09 then js "\\t"
  else if u = 0x0A then js "\\n"
  else if u = 0x0C then js "\\f"
  else if u = 0x0D then js "\\r"
  else if u = unit '"' then js "\\\""
  else if u = unit '\\' then js "\\\\"
  else if u < 0x20 then unicodeEscape u
  else [u]

/-- The inside of a quoted string. -/
def quoteUnits : JsString → JsString
  | [] => []
  | [u] => if isHighSurrogate u || isLowSurrogate u then unicodeEscape u else escapeUnit u
  | u :: v :: rest =>
      if isHighSurrogate u then
        if isLowSurrogate v then u :: v :: quoteUnits rest
        else unicodeEscape u ++ quoteUnits (v :: rest)
      else if isLowSurrogate u then unicodeEscape u ++ quoteUnits (v :: rest)
      else escapeUnit u ++ quoteUnits (v :: rest)

def quote (s : JsString) : JsString := unit '"' :: quoteUnits s ++ [unit '"']

/-! ### Reading a quoted string unit by unit -/

def hexValue (u : CodeUnit) : ℕ := if u.toNat < 58 then u.toNat - 48 else u.toNat - 87

/-- The unit a short escape stands for. -/
def shortEscape (e : CodeUnit) : CodeUnit :=
  if e = unit 'b' then 0x08
  else if e = unit 't' then 0x09
  else if e = unit 'n' then 0x0A
  else if e = unit 'f' then 0x0C
  else if e = unit 'r' then 0x0D
  else e

/-- Read one unit, escaped or not; `none` at the closing quote. -/
def readUnit : JsString → Option (CodeUnit × JsString)
  | [] => none
  | u :: rest =>
      if u = unit '"' then none
      else if u = unit '\\' then
        match rest with
        | [] => none
        | e :: rest =>
            if e = unit 'u' then
              match rest with
              | a :: b :: c :: d :: rest =>
                  some (UInt16.ofNat (hexValue a * 4096 + hexValue b * 256 + hexValue c * 16
                    + hexValue d), rest)
              | _ => none
            else some (shortEscape e, rest)
      else some (u, rest)

theorem hexValue_hexDigit {n : ℕ} (h : n < 16) : hexValue (hexDigit n) = n := by
  have hall : ∀ m : Fin 16, hexValue (hexDigit m.val) = m.val := by decide
  exact hall ⟨n, h⟩

theorem readUnit_unicodeEscape (u : CodeUnit) (t : JsString) :
    readUnit (unicodeEscape u ++ t) = some (u, t) := by
  have hlt := u.toNat_lt
  have hsum : u.toNat / 4096 * 4096 + u.toNat / 256 % 16 * 256 + u.toNat / 16 % 16 * 16
      + u.toNat % 16 = u.toNat := by omega
  have hquote : unit '\\' ≠ unit '"' := by decide
  simp only [unicodeEscape, List.cons_append, List.nil_append, readUnit, if_neg hquote, if_true]
  rw [hexValue_hexDigit (by omega), hexValue_hexDigit (by omega), hexValue_hexDigit (by omega),
    hexValue_hexDigit (by omega), hsum, UInt16.ofNat_toNat]

theorem readUnit_plain {u : CodeUnit} (hq : u ≠ unit '"') (hb : u ≠ unit '\\') (t : JsString) :
    readUnit (u :: t) = some (u, t) := by
  simp [readUnit, hq, hb]

theorem readUnit_surrogate {u : CodeUnit} (h : isHighSurrogate u = true ∨ isLowSurrogate u = true)
    (t : JsString) : readUnit (u :: t) = some (u, t) := by
  apply readUnit_plain
  · rintro rfl
    revert h
    decide
  · rintro rfl
    revert h
    decide

theorem readUnit_escapeUnit (u : CodeUnit) (t : JsString) :
    readUnit (escapeUnit u ++ t) = some (u, t) := by
  unfold escapeUnit
  split_ifs with h₁ h₂ h₃ h₄ h₅ h₆ h₇ h₈
  · subst h₁; rfl
  · subst h₂; rfl
  · subst h₃; rfl
  · subst h₄; rfl
  · subst h₅; rfl
  · subst h₆; rfl
  · subst h₇; rfl
  · exact readUnit_unicodeEscape u t
  · exact readUnit_plain h₆ h₇ t

/-- `text` spells the units of a string one after another. -/
inductive Spells : JsString → JsString → Prop
  | nil : Spells [] []
  | cons {u : CodeUnit} {s w rest : JsString} :
      (∀ t, readUnit (w ++ t) = some (u, t)) → Spells s rest → Spells (u :: s) (w ++ rest)

theorem spells_quoteUnits (s : JsString) : Spells s (quoteUnits s) := by
  fun_induction quoteUnits s with
  | case1 => exact .nil
  | case2 u h => simpa using Spells.cons (readUnit_unicodeEscape u) .nil
  | case3 u h => simpa using Spells.cons (readUnit_escapeUnit u) .nil
  | case4 u v rest hu hv ih =>
      exact .cons (w := [u]) (readUnit_surrogate (.inl hu))
        (.cons (w := [v]) (readUnit_surrogate (.inr hv)) ih)
  | case5 u v rest hu hv ih => exact .cons (readUnit_unicodeEscape u) ih
  | case6 u v rest hu hl ih => exact .cons (readUnit_unicodeEscape u) ih
  | case7 u v rest hu hl ih => exact .cons (readUnit_escapeUnit u) ih

theorem spells_inj {s s' p p' r r' : JsString} (h : Spells s p) (h' : Spells s' p')
    (heq : p ++ unit '"' :: r = p' ++ unit '"' :: r') : s = s' ∧ r = r' := by
  have hend : ∀ t, readUnit (unit '"' :: t) = none := fun t => by simp [readUnit]
  induction h generalizing s' p' with
  | nil =>
      cases h' with
      | nil => exact ⟨rfl, List.tail_eq_of_cons_eq heq⟩
      | @cons u s text rest hread _ =>
          have hr := hend r
          rw [List.nil_append, List.append_assoc] at heq
          rw [heq, hread] at hr
          cases hr
  | @cons u s text rest hread _ ih =>
      cases h' with
      | nil =>
          have hr := hend r'
          rw [List.nil_append, List.append_assoc] at heq
          rw [← heq, hread] at hr
          cases hr
      | @cons u' s' text' rest' hread' hrest' =>
          rw [List.append_assoc, List.append_assoc] at heq
          have hboth := hread (rest ++ unit '"' :: r)
          rw [heq, hread'] at hboth
          simp only [Option.some.injEq, Prod.mk.injEq] at hboth
          obtain ⟨hs, hr⟩ := ih hrest' hboth.2.symm
          exact ⟨by rw [hs, hboth.1], hr⟩

/-- **Quoted strings are self-delimiting.** -/
theorem quote_append_inj {s t r r' : JsString} (h : quote s ++ r = quote t ++ r') :
    s = t ∧ r = r' := by
  simp only [quote, List.cons_append, List.append_assoc, List.nil_append, List.cons.injEq,
    true_and] at h
  exact spells_inj (spells_quoteUnits s) (spells_quoteUnits t) h

/-! ### Printing values -/

/-- The items of a list after the first, each behind a comma. -/
def moreText : List JsString → JsString
  | [] => []
  | t :: ts => unit ',' :: (t ++ moreText ts)

/-- Items separated by commas. -/
def commaText : List JsString → JsString
  | [] => []
  | t :: ts => t ++ moreText ts

/-- A member: its quoted key, a colon and the text of its value. -/
def memberText (m : JsString × JsString) : JsString := quote m.1 ++ unit ':' :: m.2

mutual

/-- The text of a value, members in list order. -/
def serialize : Json → JsString
  | .null => js "null"
  | .bool true => js "true"
  | .bool false => js "false"
  | .num x => numberText x
  | .str s => quote s
  | .arr elements => unit '[' :: commaText (serializeElements elements) ++ [unit ']']
  | .obj members =>
      unit '{' :: commaText ((serializeMembers members).map memberText) ++ [unit '}']

def serializeElements : List Json → List JsString
  | [] => []
  | v :: rest => serialize v :: serializeElements rest

def serializeMembers : List (JsString × Json) → List (JsString × JsString)
  | [] => []
  | (k, v) :: rest => (k, serialize v) :: serializeMembers rest

end

theorem serializeElements_eq (elements : List Json) :
    serializeElements elements = elements.map serialize := by
  induction elements with
  | nil => rfl
  | cons v rest ih => rw [serializeElements, ih, List.map_cons]

theorem serializeMembers_eq (members : List (JsString × Json)) :
    serializeMembers members = members.map fun m => (m.1, serialize m.2) := by
  induction members with
  | nil => rfl
  | cons m rest ih => rw [serializeMembers, ih, List.map_cons]

/-- A member of an object as it is printed. -/
def printMember (m : JsString × Json) : JsString := quote m.1 ++ unit ':' :: serialize m.2

theorem serialize_arr (elements : List Json) : serialize (.arr elements)
    = unit '[' :: (commaText (elements.map serialize) ++ [unit ']']) := by
  rw [serialize, serializeElements_eq, List.cons_append]

theorem serialize_obj (members : List (JsString × Json)) : serialize (.obj members)
    = unit '{' :: (commaText (members.map printMember) ++ [unit '}']) := by
  rw [serialize, serializeMembers_eq, List.map_map, List.cons_append]
  rfl

/-! ### Telling a printed value from what follows it -/

/-- What can follow a value: nothing, a comma or a closing bracket. -/
def Delimited (rest : JsString) : Prop :=
  ∀ u ∈ rest.head?, u = unit ',' ∨ u = unit ']' ∨ u = unit '}'

theorem Delimited.stopsNumber {rest : JsString} (h : Delimited rest) : StopsNumber rest := by
  intro u hu
  rcases h u hu with rfl | rfl | rfl <;> decide

/-- The kind of value a first unit announces. -/
def kindOfUnit (u : CodeUnit) : ℕ :=
  if isNumberUnit u then 0
  else if u = unit 'n' then 1
  else if u = unit 't' then 2
  else if u = unit 'f' then 3
  else if u = unit '"' then 4
  else if u = unit '[' then 5
  else if u = unit '{' then 6
  else 7

def kind : Json → ℕ
  | .num _ => 0
  | .null => 1
  | .bool true => 2
  | .bool false => 3
  | .str _ => 4
  | .arr _ => 5
  | .obj _ => 6

/-- A value's text is not empty and its first unit tells the kind of the value. -/
theorem serialize_head (j : Json) : ∃ u t, serialize j = u :: t ∧ kindOfUnit u = kind j := by
  cases j with
  | null => exact ⟨unit 'n', js "ull", rfl, by decide⟩
  | bool b =>
      cases b with
      | true => exact ⟨unit 't', js "rue", rfl, by decide⟩
      | false => exact ⟨unit 'f', js "alse", rfl, by decide⟩
  | num x =>
      obtain ⟨u, t, htext, hu⟩ := numberText_head x
      exact ⟨u, t, htext, by rw [kindOfUnit, if_pos hu, kind]⟩
  | str s => exact ⟨unit '"', _, rfl, (by decide : kindOfUnit (unit '"') = 4)⟩
  | arr elements =>
      exact ⟨unit '[', _, serialize_arr elements, (by decide : kindOfUnit (unit '[') = 5)⟩
  | obj members =>
      exact ⟨unit '{', _, serialize_obj members, (by decide : kindOfUnit (unit '{') = 6)⟩

/-- An item that can be told from what follows it. -/
def Told {α : Type*} (print : α → JsString) (a : α) : Prop :=
  ∀ b q q', Delimited q → Delimited q' → print a ++ q = print b ++ q' → a = b ∧ q = q'

section Items

variable {α : Type*} {print : α → JsString} {close : CodeUnit}
  (hclose : close = unit ']' ∨ close = unit '}')
include hclose

theorem delimited_moreText (zs : List α) (q : JsString) :
    Delimited (moreText (zs.map print) ++ close :: q) := by
  intro u hu
  cases zs with
  | nil =>
      obtain rfl : close = u := Option.some.inj hu
      exact .inr hclose
  | cons z zs =>
      obtain rfl : unit ',' = u := Option.some.inj hu
      exact .inl rfl

/-- The items after the first, each behind a comma, are determined by the text. -/
theorem moreText_append_inj {xs ys : List α} {r r' : JsString} (hitem : ∀ a ∈ xs, Told print a)
    (h : moreText (xs.map print) ++ close :: r = moreText (ys.map print) ++ close :: r') :
    xs = ys ∧ r = r' := by
  have hcomma : unit ',' ≠ close := by rcases hclose with rfl | rfl <;> decide
  induction xs generalizing ys with
  | nil =>
      cases ys with
      | nil => exact ⟨rfl, List.tail_eq_of_cons_eq h⟩
      | cons y ys => exact absurd (List.head_eq_of_cons_eq h).symm hcomma
  | cons x xs ih =>
      cases ys with
      | nil => exact absurd (List.head_eq_of_cons_eq h) hcomma
      | cons y ys =>
          simp only [List.map_cons, moreText, List.cons_append, List.append_assoc,
            List.cons.injEq, true_and] at h
          obtain ⟨rfl, hrest⟩ := hitem x List.mem_cons_self y _ _ (delimited_moreText hclose xs r)
            (delimited_moreText hclose ys r') h
          obtain ⟨rfl, hr⟩ := ih (fun a ha => hitem a (List.mem_cons_of_mem _ ha)) hrest
          exact ⟨rfl, hr⟩

/-- Comma-separated items in front of a closing bracket are determined by the text, when each item
can be told from what follows it and none starts with that bracket. -/
theorem commaText_append_inj (hhead : ∀ a, ∃ u t, print a = u :: t ∧ u ≠ close) {xs ys : List α}
    {r r' : JsString} (hitem : ∀ a ∈ xs, Told print a)
    (h : commaText (xs.map print) ++ close :: r = commaText (ys.map print) ++ close :: r') :
    xs = ys ∧ r = r' := by
  cases xs with
  | nil =>
      cases ys with
      | nil => exact ⟨rfl, List.tail_eq_of_cons_eq h⟩
      | cons y ys =>
          obtain ⟨u, t, htext, hu⟩ := hhead y
          rw [List.map_cons, commaText, htext] at h
          exact absurd (List.head_eq_of_cons_eq h).symm hu
  | cons x xs =>
      cases ys with
      | nil =>
          obtain ⟨u, t, htext, hu⟩ := hhead x
          rw [List.map_cons, commaText, htext] at h
          exact absurd (List.head_eq_of_cons_eq h) hu
      | cons y ys =>
          rw [List.map_cons, List.map_cons, commaText, commaText, List.append_assoc,
            List.append_assoc] at h
          obtain ⟨rfl, hrest⟩ := hitem x List.mem_cons_self y _ _ (delimited_moreText hclose xs r)
            (delimited_moreText hclose ys r') h
          obtain ⟨rfl, hr⟩ := moreText_append_inj hclose
            (fun a ha => hitem a (List.mem_cons_of_mem _ ha)) hrest
          exact ⟨rfl, hr⟩

end Items

/-- Equal texts start values of the same kind. -/
theorem kind_eq_of_serialize_append {a b : Json} {r r' : JsString}
    (h : serialize a ++ r = serialize b ++ r') : kind a = kind b := by
  obtain ⟨u, t, ha, hu⟩ := serialize_head a
  obtain ⟨v, t', hb, hv⟩ := serialize_head b
  rw [ha, hb] at h
  rw [← hu, ← hv, List.head_eq_of_cons_eq h]

theorem kind_lt (j : Json) : kind j < 7 := by
  cases j with
  | bool b => cases b <;> decide
  | _ => simp [kind]

theorem serialize_ne_close (j : Json) : ∃ u t, serialize j = u :: t ∧ u ≠ unit ']' := by
  obtain ⟨u, t, htext, hu⟩ := serialize_head j
  refine ⟨u, t, htext, ?_⟩
  rintro rfl
  have hlt := kind_lt j
  rw [← hu] at hlt
  revert hlt
  decide

theorem Told.printMember {m : JsString × Json} (h : Told serialize m.2) : Told printMember m := by
  intro n q q' hq hq' heq
  simp only [JsonText.printMember, List.append_assoc] at heq
  obtain ⟨hkey, heq⟩ := quote_append_inj heq
  obtain ⟨hvalue, hrest⟩ := h n.2 q q' hq hq' (List.tail_eq_of_cons_eq heq)
  exact ⟨Prod.ext hkey hvalue, hrest⟩

/-- **A printed value can be told from what follows it.** -/
theorem serialize_append_inj {a b : Json} {r r' : JsString} (hr : Delimited r)
    (hr' : Delimited r') (h : serialize a ++ r = serialize b ++ r') : a = b ∧ r = r' := by
  have hkind := kind_eq_of_serialize_append h
  induction a using Json.induction generalizing b r r' with
  | null =>
      cases b with
      | null => exact ⟨rfl, List.append_cancel_left h⟩
      | bool y => cases y <;> simp [kind] at hkind
      | _ => simp [kind] at hkind
  | bool x =>
      cases b with
      | bool y =>
          obtain rfl : x = y := by
            cases x <;> cases y <;> simp_all [kind]
          exact ⟨rfl, List.append_cancel_left h⟩
      | _ => cases x <;> simp [kind] at hkind
  | num x =>
      cases b with
      | num y =>
          obtain ⟨rfl, hrest⟩ := numberText_append_inj hr.stopsNumber hr'.stopsNumber h
          exact ⟨rfl, hrest⟩
      | bool y => cases y <;> simp [kind] at hkind
      | _ => simp [kind] at hkind
  | str s =>
      cases b with
      | str t =>
          obtain ⟨rfl, hrest⟩ := quote_append_inj h
          exact ⟨rfl, hrest⟩
      | bool y => cases y <;> simp [kind] at hkind
      | _ => simp [kind] at hkind
  | arr xs ih =>
      cases b with
      | arr ys =>
          simp only [serialize_arr, List.cons_append, List.append_assoc, List.nil_append,
            List.cons.injEq, true_and] at h
          obtain ⟨rfl, hrest⟩ := commaText_append_inj (.inl rfl) serialize_ne_close
            (fun v hv b q q' hq hq' heq => ih v hv hq hq' heq (kind_eq_of_serialize_append heq)) h
          exact ⟨rfl, hrest⟩
      | bool y => cases y <;> simp [kind] at hkind
      | _ => simp [kind] at hkind
  | obj ms ih =>
      cases b with
      | obj ns =>
          simp only [serialize_obj, List.cons_append, List.append_assoc, List.nil_append,
            List.cons.injEq, true_and] at h
          have hitem : ∀ m ∈ ms, Told printMember m := fun m hm =>
            Told.printMember fun b q q' hq hq' heq =>
              ih m hm hq hq' heq (kind_eq_of_serialize_append heq)
          obtain ⟨rfl, hrest⟩ := commaText_append_inj (.inr rfl)
            (fun m => ⟨unit '"', _, rfl, by decide⟩) hitem h
          exact ⟨rfl, hrest⟩
      | bool y => cases y <;> simp [kind] at hkind
      | _ => simp [kind] at hkind

/-- **A value is determined by its text.** -/
theorem serialize_inj {a b : Json} (h : serialize a = serialize b) : a = b := by
  have hnil : Delimited [] := fun u hu => nomatch hu
  have hboth : a = b ∧ ([] : JsString) = [] := serialize_append_inj hnil hnil (by rw [h])
  exact hboth.1

/-! ### The text is well-formed UTF-16 -/

theorem wellFormed_unicodeEscape (u : CodeUnit) : wellFormed (unicodeEscape u) = true := by
  have hlt := u.toNat_lt
  have hhex : ∀ n, n < 16 →
      isHighSurrogate (hexDigit n) = false ∧ isLowSurrogate (hexDigit n) = false := by
    intro n hn
    have hall : ∀ m : Fin 16, isHighSurrogate (hexDigit m.val) = false ∧
        isLowSurrogate (hexDigit m.val) = false := by decide
    exact hall ⟨n, hn⟩
  apply wellFormed_of_forall
  simp only [unicodeEscape, List.forall_mem_cons]
  exact ⟨by decide, by decide, hhex _ (by omega), hhex _ (by omega), hhex _ (by omega),
    hhex _ (by omega), by simp⟩

theorem wellFormed_escapeUnit {u : CodeUnit} (hh : isHighSurrogate u = false)
    (hl : isLowSurrogate u = false) : wellFormed (escapeUnit u) = true := by
  unfold escapeUnit
  split_ifs
  · decide
  · decide
  · decide
  · decide
  · decide
  · decide
  · decide
  · exact wellFormed_unicodeEscape u
  · simp [wellFormed, hh, hl]

theorem wellFormed_quote (s : JsString) : wellFormed (quote s) = true := by
  have hunits : wellFormed (quoteUnits s) = true := by
    fun_induction quoteUnits s with
    | case1 => rfl
    | case2 u h => exact wellFormed_unicodeEscape u
    | case3 u h =>
        simp only [Bool.or_eq_true, not_or, Bool.not_eq_true] at h
        exact wellFormed_escapeUnit h.1 h.2
    | case4 u v rest hu hv ih => simp [wellFormed, hu, hv, ih]
    | case5 u v rest hu hv ih => exact wellFormed_append (wellFormed_unicodeEscape u) ih
    | case6 u v rest hu hl ih => exact wellFormed_append (wellFormed_unicodeEscape u) ih
    | case7 u v rest hu hl ih =>
        exact wellFormed_append (wellFormed_escapeUnit (by simpa using hu) (by simpa using hl)) ih
  exact wellFormed_append (s := [unit '"']) (by decide)
    (wellFormed_append hunits (by decide))

theorem wellFormed_numberText (x : JsNumber) : wellFormed (numberText x) = true := by
  apply wellFormed_of_forall
  intro u hu
  have hnum := all_isNumberUnit_numberText x u hu
  have hlt : u.toNat < 0xD800 := by
    simp only [isNumberUnit, isDigitUnit_iff, Bool.or_eq_true, beq_iff_eq] at hnum
    rcases hnum with (((hd | rfl) | rfl) | rfl) | rfl
    · omega
    · decide
    · decide
    · decide
    · decide
  constructor
  · exact Bool.eq_false_iff.mpr (mt isHighSurrogate_iff.mp (by omega))
  · exact Bool.eq_false_iff.mpr (mt isLowSurrogate_iff.mp (by omega))

theorem wellFormed_commaText {ts : List JsString} (h : ∀ t ∈ ts, wellFormed t = true) :
    wellFormed (commaText ts) = true := by
  have hmore : ∀ ts : List JsString, (∀ t ∈ ts, wellFormed t = true) →
      wellFormed (moreText ts) = true := by
    intro ts
    induction ts with
    | nil => exact fun _ => rfl
    | cons t ts ih =>
        intro h
        rw [List.forall_mem_cons] at h
        exact wellFormed_append (s := [unit ',']) (by decide) (wellFormed_append h.1 (ih h.2))
  cases ts with
  | nil => rfl
  | cons t ts =>
      rw [List.forall_mem_cons] at h
      exact wellFormed_append h.1 (hmore ts h.2)

theorem wellFormed_serialize (j : Json) : wellFormed (serialize j) = true := by
  have hbracket : ∀ (o c : CodeUnit) (t : JsString), wellFormed [o] = true →
      wellFormed [c] = true → wellFormed t = true → wellFormed (o :: (t ++ [c])) = true :=
    fun o c t ho hc ht => wellFormed_append (s := [o]) ho (wellFormed_append ht hc)
  induction j using Json.induction with
  | null => decide
  | bool b => cases b <;> decide
  | num x => exact wellFormed_numberText x
  | str s => exact wellFormed_quote s
  | arr elements ih =>
      rw [serialize_arr]
      refine hbracket _ _ _ (by decide) (by decide) (wellFormed_commaText ?_)
      simpa using ih
  | obj members ih =>
      rw [serialize_obj]
      refine hbracket _ _ _ (by decide) (by decide) (wellFormed_commaText fun t ht => ?_)
      obtain ⟨m, hm, rfl⟩ := List.mem_map.mp ht
      exact wellFormed_append (wellFormed_quote m.1)
        (wellFormed_append (s := [unit ':']) (by decide) (ih m hm))

end A2aAgentLayer.Lib.JsonText
