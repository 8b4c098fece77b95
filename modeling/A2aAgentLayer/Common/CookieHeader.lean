import A2aAgentLayer.Lib.JsText

/-!
# The cookie header

A client sends its cookies as `name=value` pairs joined by `; `.  The reader splits the header at
every semicolon, trims the parts and takes the value of the first part whose key is the one it looks
for; everything behind the first equals sign is the value.
-/

namespace A2aAgentLayer.Common.CookieHeader

open A2aAgentLayer.Lib.Utf16 A2aAgentLayer.Lib.JsText

/-- `[key, ...rest] = part.trim().split('=')`, with `rest` joined again. -/
def keyValue (part : JsString) : JsString × JsString :=
  match (trim part).splitOn (unit '=') with
  | [] => ([], [])
  | key :: rest => (key, [unit '='].intercalate rest)

/-- The value behind the first key of this name, still encoded. -/
def findCookie (name header : JsString) : Option JsString :=
  ((header.splitOn (unit ';')).find? fun part => decide ((keyValue part).1 = name)).map fun part =>
    (keyValue part).2

/-- A well-formed cookie: the name is a token, and no semicolon ends the value early. -/
structure Cookie where
  name : JsString
  value : JsString
  name_ne : name ≠ []
  name_plain : ∀ u ∈ name, u ≠ unit '=' ∧ u ≠ unit ';' ∧ isSpace u = false
  value_plain : unit ';' ∉ value

def Cookie.text (cookie : Cookie) : JsString := cookie.name ++ unit '=' :: cookie.value

/-- The header a client sends. -/
def cookieHeader (cookies : List Cookie) : JsString :=
  (js "; ").intercalate (cookies.map Cookie.text)

example : findCookie (js "b") (js "a=1;  b=x=y ; b=2") = some (js "x=y") := by decide

/-! ### Reading one pair -/

theorem Cookie.trim_text (cookie : Cookie) :
    trim cookie.text = cookie.name ++ unit '=' :: cookie.value.rdropWhile isSpace :=
  trim_append_cons cookie.name_ne (fun u hu => (cookie.name_plain u hu).2.2) (by decide)

theorem keyValue_of_trim {part key value : JsString} (hkey : unit '=' ∉ key)
    (h : trim part = key ++ unit '=' :: value) : keyValue part = (key, value) := by
  rw [keyValue, h, List.splitOn_append_cons_self_of_not_mem hkey]
  show (key, [unit '='].intercalate (value.splitOn (unit '='))) = (key, value)
  rw [List.intercalate_splitOn]

theorem Cookie.keyValue_text (cookie : Cookie) :
    keyValue cookie.text = (cookie.name, cookie.value.rdropWhile isSpace) :=
  keyValue_of_trim (fun hmem => (cookie.name_plain _ hmem).1 rfl) cookie.trim_text

theorem Cookie.keyValue_space_text (cookie : Cookie) :
    keyValue (unit ' ' :: cookie.text) = (cookie.name, cookie.value.rdropWhile isSpace) := by
  refine keyValue_of_trim (fun hmem => (cookie.name_plain _ hmem).1 rfl) ?_
  rw [trim_cons_space (by decide)]
  exact cookie.trim_text

/-! ### Splitting the header -/

theorem Cookie.semicolon_notMem_text (cookie : Cookie) : unit ';' ∉ cookie.text := by
  have hequals : unit ';' ≠ unit '=' := by decide
  rw [Cookie.text, List.mem_append, List.mem_cons]
  rintro (hname | heq | hvalue)
  · exact (cookie.name_plain _ hname).2.1 rfl
  · exact hequals heq
  · exact cookie.value_plain hvalue

theorem splitOn_cookieHeader (cookie : Cookie) (cookies : List Cookie) (front : JsString)
    (hfront : unit ';' ∉ front) :
    (front ++ cookieHeader (cookie :: cookies)).splitOn (unit ';')
      = (front ++ cookie.text) :: cookies.map fun c => unit ' ' :: c.text := by
  have hpart : unit ';' ∉ front ++ cookie.text := by
    rw [List.mem_append, not_or]
    exact ⟨hfront, cookie.semicolon_notMem_text⟩
  induction cookies generalizing cookie front with
  | nil =>
      have hheader : cookieHeader [cookie] = cookie.text := by
        simp [cookieHeader]
      rw [hheader]
      exact List.splitOn_eq_singleton hpart
  | cons next cookies ih =>
      have hheader : front ++ cookieHeader (cookie :: next :: cookies)
          = (front ++ cookie.text)
            ++ unit ';' :: ([unit ' '] ++ cookieHeader (next :: cookies)) := by
        simp only [cookieHeader, List.map_cons, List.intercalate_cons_cons, List.append_assoc]
        rfl
      have hspace : unit ';' ∉ [unit ' '] := by decide
      have hnext : unit ';' ∉ [unit ' '] ++ next.text := by
        rw [List.mem_append, not_or]
        exact ⟨hspace, next.semicolon_notMem_text⟩
      rw [hheader, List.splitOn_append_cons_self_of_not_mem hpart, ih next [unit ' '] hspace hnext]
      rfl

theorem cookieHeader_ne {cookies : List Cookie} (hne : cookies ≠ []) :
    cookieHeader cookies ≠ [] := by
  obtain ⟨cookie, rest, rfl⟩ := List.exists_cons_of_ne_nil hne
  intro h
  have hsplit := splitOn_cookieHeader cookie rest [] (by simp)
  rw [h, List.nil_append, List.nil_append, List.splitOn_nil] at hsplit
  have htext : [] = cookie.text := (List.cons.inj hsplit).1
  simp [Cookie.text] at htext

/-- **Reading a header of well-formed cookies** finds the first cookie of the name. -/
theorem findCookie_cookieHeader (name : JsString) {cookies : List Cookie} (hne : cookies ≠ []) :
    findCookie name (cookieHeader cookies)
      = (cookies.find? fun c => decide (c.name = name)).map fun c =>
        c.value.rdropWhile isSpace := by
  cases cookies with
  | nil => exact absurd rfl hne
  | cons cookie cookies =>
      have hsplit := splitOn_cookieHeader cookie cookies [] (by simp)
      rw [List.nil_append, List.nil_append] at hsplit
      rw [findCookie, hsplit, List.find?_cons, List.find?_cons, cookie.keyValue_text]
      by_cases hname : cookie.name = name
      · simp only [hname, decide_true, Option.map_some, cookie.keyValue_text]
      · have hrest : ((fun part => decide ((keyValue part).1 = name)) ∘ fun c : Cookie =>
            unit ' ' :: c.text) = fun c : Cookie => decide (c.name = name) := by
          funext c
          simp only [Function.comp_apply, c.keyValue_space_text]
        simp only [hname, decide_false, List.find?_map, hrest, Option.map_map]
        congr 1
        funext c
        simp only [Function.comp_apply, c.keyValue_space_text]

end A2aAgentLayer.Common.CookieHeader
