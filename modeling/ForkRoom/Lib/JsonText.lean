/-
# `Lib.JsonText` — reading JSON

`json.loads(text)` of a text without surrogates, as the decoder of the standard library
reads it: the grammar of JSON, and `NaN`, `Infinity` and `-Infinity` as numbers.  Of two
fields with one name the later counts.  What goes wrong is

    value        no JSON, or an integer of more digits than the interpreter converts
    recursion    more arrays and objects inside each other than it has room for

An escape can make a lone surrogate, so strings are lists of code points.  A scanner goes
forward (`Scanner`), and so the loops over items and fields come to an end.
-/
import ForkRoom.Lib.Codec
import ForkRoom.Lib.Json

namespace JsonText

open Codec

/-- What a JSON text is read as. -/
inductive Value where
  | null
  | bool (b : Bool)
  | int (i : Int)
  | float (text : List Char)
  | str (s : Text)
  | list (items : List Value)
  | dict (fields : List (Text × Value))

inductive LoadError where
  | value | recursion
  deriving DecidableEq, Repr

/-- `int(text)` converts at most as many digits. -/
def maxStrDigits : Nat := 4300

def isWhitespace (c : Char) : Bool := c = ' ' || c = '\t' || c = '\n' || c = '\r'

def skip (text : List Char) : List Char := text.dropWhile isWhitespace

/-! ## Strings -/

def hexDigit? (c : Char) : Option Nat :=
  if c.isDigit then some (c.toNat - 48)
  else if 'a' ≤ c ∧ c ≤ 'f' then some (c.toNat - 87)
  else if 'A' ≤ c ∧ c ≤ 'F' then some (c.toNat - 55)
  else none

/-- The four digits of `\uXXXX`. -/
def hex4? : List Char → Option (Nat × List Char)
  | a :: b :: c :: d :: rest => do
      let a ← hexDigit? a
      let b ← hexDigit? b
      let c ← hexDigit? c
      let d ← hexDigit? d
      pure (((a * 16 + b) * 16 + c) * 16 + d, rest)
  | _ => none

/-- `\uXXXX`, behind the `u`; a pair of surrogates is one code point. -/
def scanUnicode (text : List Char) : Option (CodePoint × List Char) := do
  let (uni, rest) ← hex4? text
  if 55296 ≤ uni ∧ uni ≤ 56319 then
    match rest with
    | '\\' :: 'u' :: more => do
        let (uni₂, more) ← hex4? more
        if 56320 ≤ uni₂ ∧ uni₂ ≤ 57343 then
          pure (.ofNat _ (65536 + (uni - 55296) * 1024 + (uni₂ - 56320)), more)
        else pure (.ofNat _ uni, rest)
    | _ => pure (.ofNat _ uni, rest)
  else pure (.ofNat _ uni, rest)

/-- `BACKSLASH` -/
def backslash : List (Char × CodePoint) :=
  [('"', 34), ('\\', 92), ('/', 47), ('b', 8), ('f', 12), ('n', 10), ('r', 13), ('t', 9)]

/-- An escape, behind the backslash. -/
def scanEscape : List Char → Option (CodePoint × List Char)
  | [] => none
  | c :: rest =>
      if c = 'u' then scanUnicode rest else (backslash.lookup c).map fun code => (code, rest)

theorem hex4?_lt {text rest : List Char} {n : Nat} (h : hex4? text = some (n, rest)) :
    rest.length < text.length := by
  unfold hex4? at h
  split at h
  · simp only [Option.bind_eq_bind, Option.bind_eq_some_iff, Option.pure_def, Option.some.injEq,
      Prod.mk.injEq] at h
    obtain ⟨_, -, _, -, _, -, _, -, -, rfl⟩ := h
    simp only [List.length_cons]
    omega
  · cases h

theorem scanUnicode_lt {text rest : List Char} {c : CodePoint}
    (h : scanUnicode text = some (c, rest)) : rest.length < text.length := by
  unfold scanUnicode at h
  obtain ⟨⟨uni, behind⟩, hfirst, h⟩ := Option.bind_eq_some_iff.mp h
  have hlt := hex4?_lt hfirst
  have hpure : ∀ {code : CodePoint} {left : List Char},
      (pure (code, left) : Option (CodePoint × List Char)) = some (c, rest) → left = rest :=
    fun he => congrArg Prod.snd (Option.some.inj he)
  dsimp only at h
  split at h
  · split at h
    · obtain ⟨⟨uni₂, more⟩, hsecond, h⟩ := Option.bind_eq_some_iff.mp h
      have hlt₂ := hex4?_lt hsecond
      simp only [List.length_cons] at hlt
      dsimp only at h
      split at h
      · rw [← hpure h]
        omega
      · rw [← hpure h]
        simp only [List.length_cons]
        omega
    · rw [← hpure h]
      exact hlt
  · rw [← hpure h]
    exact hlt

theorem scanEscape_lt {text rest : List Char} {c : CodePoint}
    (h : scanEscape text = some (c, rest)) : rest.length < text.length := by
  cases text with
  | nil => simp [scanEscape] at h
  | cons c' behind =>
      rw [scanEscape] at h
      by_cases hu : c' = 'u'
      · rw [if_pos hu] at h
        exact Nat.lt_succ_of_lt (scanUnicode_lt h)
      · rw [if_neg hu] at h
        generalize backslash.lookup c' = code at h
        obtain ⟨code, -, he⟩ := Option.map_eq_some_iff.mp h
        rw [← (Prod.mk.inj he).2]
        exact Nat.lt_succ_self _

/-- `scanstring`, behind the opening quote. -/
def scanString (text : List Char) : Option (Text × List Char) :=
  match text with
  | [] => none
  | c :: rest =>
      if c = '"' then some ([], rest)
      else if c = '\\' then
        match _h : scanEscape rest with
        | none => none
        | some (c, rest) => (scanString rest).map fun p => (c :: p.1, p.2)
      else if c.toNat < 32 then none
      else (scanString rest).map fun p => (.ofChar c :: p.1, p.2)
termination_by text.length
decreasing_by
  · exact Nat.lt_succ_of_lt (scanEscape_lt (by assumption))
  · exact Nat.lt_succ_self _

theorem scanString_lt {text rest : List Char} {s : Text} (h : scanString text = some (s, rest)) :
    rest.length < text.length := by
  fun_induction scanString text generalizing rest s with
  | case1 => cases h
  | case2 more =>
      cases h
      exact Nat.lt_succ_self _
  | case3 => cases h
  | case4 more c behind hescape hquote ih =>
      obtain ⟨p, hp, he⟩ := Option.map_eq_some_iff.mp h
      cases he
      exact Nat.lt_succ_of_lt (Nat.lt_trans (ih hp) (scanEscape_lt hescape))
  | case5 => cases h
  | case6 c more hquote hslash hcontrol ih =>
      obtain ⟨p, hp, he⟩ := Option.map_eq_some_iff.mp h
      cases he
      exact Nat.lt_succ_of_lt (ih hp)

/-! ## Numbers -/

/-- The fraction of a number, or nothing. -/
def scanFraction (text : List Char) : List Char × List Char :=
  match text with
  | '.' :: rest =>
      match rest.takeWhile Char.isDigit with
      | [] => ([], text)
      | digits => ('.' :: digits, rest.dropWhile Char.isDigit)
  | _ => ([], text)

/-- One of some signs, or nothing. -/
def scanSign (signs : List Char) : List Char → List Char × List Char
  | [] => ([], [])
  | c :: rest => if c ∈ signs then ([c], rest) else ([], c :: rest)

/-- The exponent of a number, or nothing. -/
def scanExponent (text : List Char) : List Char × List Char :=
  match text with
  | c :: rest =>
      if c = 'e' ∨ c = 'E' then
        let (sign, rest) := scanSign ['-', '+'] rest
        match rest.takeWhile Char.isDigit with
        | [] => ([], text)
        | digits => (c :: sign ++ digits, rest.dropWhile Char.isDigit)
      else ([], text)
  | [] => ([], [])

/-- The digits of an integer: `0`, or no `0` in front. -/
def scanDigits (text : List Char) : Option (List Char × List Char) :=
  match text.takeWhile Char.isDigit with
  | [] => none
  | '0' :: _ => some (['0'], text.drop 1)
  | digits => some (digits, text.dropWhile Char.isDigit)

/-- A number, or one of the constants. -/
def scanNumber (text : List Char) : Except LoadError (Value × List Char) :=
  let (sign, unsigned) := scanSign ['-'] text
  match scanDigits unsigned with
  | some (digits, rest) =>
      let (fraction, rest) := scanFraction rest
      let (exponent, rest) := scanExponent rest
      if fraction = [] ∧ exponent = [] then
        if digits.length ≤ maxStrDigits then
          let n : Int := Nat.ofDigitChars 10 digits 0
          .ok (.int (if sign = [] then n else -n), rest)
        else .error .value
      else .ok (.float (sign ++ digits ++ fraction ++ exponent), rest)
  | none =>
      if "NaN".toList.isPrefixOf text then .ok (.float "nan".toList, text.drop 3)
      else if "Infinity".toList.isPrefixOf text then .ok (.float "inf".toList, text.drop 8)
      else if "-Infinity".toList.isPrefixOf text then .ok (.float "-inf".toList, text.drop 9)
      else .error .value

/-! ## Arrays and objects -/

/-- What reads a value from the front of a text. -/
structure Scanner where
  run : List Char → Except LoadError (Value × List Char)
  forward : ∀ {text rest : List Char} {v : Value}, run text = .ok (v, rest) →
    rest.length < text.length

theorem skip_le (text : List Char) : (skip text).length ≤ text.length :=
  (List.dropWhile_sublist _).length_le

/-- What is behind a delimiter is shorter than the text in front of it. -/
theorem behind_lt {text rest more : List Char} {c : Char} (hrest : rest.length < text.length)
    (h : skip rest = c :: more) : more.length < text.length := by
  have hle := skip_le rest
  rw [h, List.length_cons] at hle
  omega

theorem map_ok {α β : Type} {e : Except LoadError α} {f : α → β} {b : β} (h : e.map f = .ok b) :
    ∃ a, e = .ok a ∧ f a = b := by
  cases e with
  | error error => cases h
  | ok a => exact ⟨a, rfl, Except.ok.inj h⟩

/-- The items of an array that is not empty. -/
def scanItems (scan : Scanner) (text : List Char) : Except LoadError (List Value × List Char) :=
  match _hitem : scan.run text with
  | .error error => .error error
  | .ok (v, rest) =>
      match _hrest : skip rest with
      | ']' :: rest => .ok ([v], rest)
      | ',' :: rest => (scanItems scan (skip rest)).map fun p => (v :: p.1, p.2)
      | _ => .error .value
termination_by text.length
decreasing_by
  exact Nat.lt_of_le_of_lt (skip_le _)
    (behind_lt (scan.forward (by assumption)) (by assumption))

/-- `JSONArray`, behind the bracket. -/
def scanArray (scan : Scanner) (text : List Char) : Except LoadError (Value × List Char) :=
  match skip text with
  | ']' :: rest => .ok (.list [], rest)
  | text => (scanItems scan text).map fun p => (.list p.1, p.2)

/-- A name and its value. -/
def scanField (scan : Scanner) : List Char → Except LoadError ((Text × Value) × List Char)
  | '"' :: text =>
      match scanString text with
      | none => .error .value
      | some (key, rest) =>
          match skip rest with
          | ':' :: rest => (scan.run (skip rest)).map fun p => ((key, p.1), p.2)
          | _ => .error .value
  | _ => .error .value

theorem scanField_lt {scan : Scanner} {text rest : List Char} {field : Text × Value}
    (h : scanField scan text = .ok (field, rest)) : rest.length < text.length := by
  unfold scanField at h
  split at h
  · split at h
    · cases h
    · rename_i key more hkey
      have hlt := scanString_lt hkey
      split at h
      · rename_i behind hcolon
        obtain ⟨p, hp, he⟩ := map_ok h
        cases he
        have h₁ := scan.forward hp
        have h₂ := skip_le behind
        have h₃ := behind_lt hlt hcolon
        simp only [List.length_cons]
        omega
      · cases h
  · cases h

/-- The fields of an object that is not empty. -/
def scanFields (scan : Scanner) (text : List Char) :
    Except LoadError (List (Text × Value) × List Char) :=
  match _hfield : scanField scan text with
  | .error error => .error error
  | .ok (field, rest) =>
      match _hrest : skip rest with
      | '\x7d' :: rest => .ok ([field], rest)
      | ',' :: rest => (scanFields scan (skip rest)).map fun p => (field :: p.1, p.2)
      | _ => .error .value
termination_by text.length
decreasing_by
  exact Nat.lt_of_le_of_lt (skip_le _)
    (behind_lt (scanField_lt (by assumption)) (by assumption))

/-- `JSONObject`, behind the brace. -/
def scanObject (scan : Scanner) (text : List Char) : Except LoadError (Value × List Char) :=
  match skip text with
  | '\x7d' :: rest => .ok (.dict [], rest)
  | text => (scanFields scan text).map fun p => (.dict p.1, p.2)

/-- `scan_once`; `inside` scans what is in an array or object, if there is room for one. -/
def scanWith (inside : Option Scanner) (text : List Char) : Except LoadError (Value × List Char) :=
  match text with
  | [] => .error .value
  | c :: rest =>
      if c = '"' then
        match scanString rest with
        | some (s, rest) => .ok (.str s, rest)
        | none => .error .value
      else if c = '\x7b' then
        match inside with
        | some scan => scanObject scan rest
        | none => .error .recursion
      else if c = '[' then
        match inside with
        | some scan => scanArray scan rest
        | none => .error .recursion
      else if "null".toList.isPrefixOf text then .ok (.null, text.drop 4)
      else if "true".toList.isPrefixOf text then .ok (.bool true, text.drop 4)
      else if "false".toList.isPrefixOf text then .ok (.bool false, text.drop 5)
      else scanNumber text

/-! ## Going forward -/

section
variable {scan : Scanner} {text rest : List Char}

theorem scanItems_lt {vs : List Value} (h : scanItems scan text = .ok (vs, rest)) :
    rest.length < text.length := by
  fun_induction scanItems scan text generalizing vs rest with
  | case1 => cases h
  | case2 text v behind hitem more hrest =>
      cases h
      exact behind_lt (scan.forward hitem) hrest
  | case3 text v behind hitem more hrest ih =>
      obtain ⟨p, hp, he⟩ := map_ok h
      cases he
      have h₁ := ih hp
      have h₂ := skip_le more
      have h₃ := behind_lt (scan.forward hitem) hrest
      omega
  | case4 => cases h

theorem scanArray_lt {v : Value} (h : scanArray scan text = .ok (v, rest)) :
    rest.length < text.length + 1 := by
  have hle := skip_le text
  unfold scanArray at h
  split at h
  · rename_i hskip
    cases h
    rw [hskip, List.length_cons] at hle
    omega
  · obtain ⟨p, hp, he⟩ := map_ok h
    cases he
    have := scanItems_lt hp
    omega

theorem scanFields_lt {fields : List (Text × Value)}
    (h : scanFields scan text = .ok (fields, rest)) : rest.length < text.length := by
  fun_induction scanFields scan text generalizing fields rest with
  | case1 => cases h
  | case2 text field behind hfield more hrest =>
      cases h
      exact behind_lt (scanField_lt hfield) hrest
  | case3 text field behind hfield more hrest ih =>
      obtain ⟨p, hp, he⟩ := map_ok h
      cases he
      have h₁ := ih hp
      have h₂ := skip_le more
      have h₃ := behind_lt (scanField_lt hfield) hrest
      omega
  | case4 => cases h

theorem scanObject_lt {v : Value} (h : scanObject scan text = .ok (v, rest)) :
    rest.length < text.length + 1 := by
  have hle := skip_le text
  unfold scanObject at h
  split at h
  · rename_i hskip
    cases h
    rw [hskip, List.length_cons] at hle
    omega
  · obtain ⟨p, hp, he⟩ := map_ok h
    cases he
    have := scanFields_lt hp
    omega

end

section
variable {text rest : List Char}

theorem takeWhile_lt {text : List Char} (h : text.takeWhile Char.isDigit ≠ []) :
    (text.dropWhile Char.isDigit).length < text.length := by
  have hparts :=
    congrArg List.length (List.takeWhile_append_dropWhile (p := Char.isDigit) (l := text))
  rw [List.length_append] at hparts
  have hpos := List.length_pos_iff.mpr h
  omega

theorem scanDigits_lt {digits : List Char} (h : scanDigits text = some (digits, rest)) :
    rest.length < text.length := by
  unfold scanDigits at h
  split at h
  · cases h
  · rename_i more hdigits
    cases h
    have hne : text ≠ [] := by
      rintro rfl
      cases hdigits
    have hpos := List.length_pos_iff.mpr hne
    rw [List.length_drop]
    omega
  · rename_i digits' hne _
    cases h
    exact takeWhile_lt hne

theorem dropDigits_le (text : List Char) : (text.dropWhile Char.isDigit).length ≤ text.length :=
  (List.dropWhile_sublist _).length_le

theorem scanFraction_le (text : List Char) : (scanFraction text).2.length ≤ text.length := by
  unfold scanFraction
  split
  · rename_i more
    split
    · exact Nat.le_refl _
    · exact Nat.le_succ_of_le (dropDigits_le more)
  · exact Nat.le_refl _

theorem scanSign_le (signs text : List Char) : (scanSign signs text).2.length ≤ text.length := by
  unfold scanSign
  split
  · exact Nat.le_refl _
  · split
    · exact Nat.le_succ _
    · exact Nat.le_refl _

theorem scanExponent_le (text : List Char) : (scanExponent text).2.length ≤ text.length := by
  unfold scanExponent
  split
  · rename_i c more
    split
    · dsimp only
      split
      · exact Nat.le_refl _
      · have h₁ := dropDigits_le (scanSign ['-', '+'] more).2
        have h₂ := scanSign_le ['-', '+'] more
        exact Nat.le_succ_of_le (Nat.le_trans h₁ h₂)
    · exact Nat.le_refl _
  · exact Nat.le_refl _

theorem drop_lt {word : List Char} {n : Nat} (hword : word.isPrefixOf text) (hn : n = word.length)
    (hpos : 0 < n) : (text.drop n).length < text.length := by
  have hle := (List.isPrefixOf_iff_prefix.mp hword).length_le
  rw [List.length_drop]
  omega

theorem scanNumber_lt {v : Value} (h : scanNumber text = .ok (v, rest)) :
    rest.length < text.length := by
  have hsign := scanSign_le ['-'] text
  unfold scanNumber at h
  dsimp only at h
  split at h
  · rename_i digits more hdigits
    have h₁ := scanDigits_lt hdigits
    have h₂ := scanFraction_le more
    have h₃ := scanExponent_le (scanFraction more).2
    split at h
    · split at h
      · cases h
        omega
      · cases h
    · cases h
      omega
  · split at h
    · rename_i hword
      cases h
      exact drop_lt hword rfl (by decide)
    · split at h
      · rename_i hword
        cases h
        exact drop_lt hword rfl (by decide)
      · split at h
        · rename_i hword
          cases h
          exact drop_lt hword rfl (by decide)
        · cases h

theorem scanWith_lt {inside : Option Scanner} {v : Value}
    (h : scanWith inside text = .ok (v, rest)) : rest.length < text.length := by
  unfold scanWith at h
  split at h
  · cases h
  · rename_i c more
    split at h
    · split at h
      · rename_i s behind hs
        cases h
        exact Nat.lt_succ_of_lt (scanString_lt hs)
      · cases h
    · split at h
      · split at h
        · exact scanObject_lt h
        · cases h
      · split at h
        · split at h
          · exact scanArray_lt h
          · cases h
        · split at h
          · rename_i hword
            cases h
            exact drop_lt hword rfl (by decide)
          · split at h
            · rename_i hword
              cases h
              exact drop_lt hword rfl (by decide)
            · split at h
              · rename_i hword
                cases h
                exact drop_lt hword rfl (by decide)
              · exact scanNumber_lt h

end

/-! ## A whole text -/

/-- `scan_once` with room for `depth` arrays and objects inside each other. -/
def scanOnce : Nat → Scanner
  | 0 => ⟨scanWith none, scanWith_lt⟩
  | depth + 1 => ⟨scanWith (some (scanOnce depth)), scanWith_lt⟩

/-- `json.loads(text)` -/
def loads (depth : Nat) (text : List Char) : Except LoadError Value :=
  if text.head? = some (Char.ofNat 65279) then .error .value
  else
    match (scanOnce depth).run (skip text) with
    | .error error => .error error
    | .ok (v, rest) => if skip rest = [] then .ok v else .error .value

/-- What a `dict` has under a key: the last field of that name. -/
def lookup (key : Text) (fields : List (Text × Value)) : Option Value :=
  (fields.reverse.find? fun field => field.1 = key).map Prod.snd

/-! ## What was written is read -/

/-- Printable, and no character that is escaped. -/
def IsPlain (text : List Char) : Prop :=
  ∀ c ∈ text, c ≠ '"' ∧ c ≠ '\\' ∧ 32 ≤ c.toNat ∧ c.toNat ≤ 126

theorem quote_plain {s : String} (h : IsPlain s.toList) :
    Json.quote s = '"' :: s.toList ++ ['"'] := by
  have hescape : ∀ {text : List Char}, IsPlain text → text.flatMap Json.escape = text := by
    intro text ht
    induction text with
    | nil => rfl
    | cons c text ih =>
        obtain ⟨hquote, hslash, hlo, hhi⟩ := ht c List.mem_cons_self
        have hne : ∀ d : Char, d.toNat < 32 → c ≠ d := by
          rintro d hd rfl
          omega
        have hone : Json.escape c = [c] := by
          rw [Json.escape, if_neg hquote, if_neg hslash, if_neg (hne '\n' (by decide)),
            if_neg (hne '\r' (by decide)), if_neg (hne '\t' (by decide)), if_neg (by omega),
            if_neg (by omega), if_pos ⟨hlo, hhi⟩]
        rw [List.flatMap_cons, hone, ih fun d hd => ht d (List.mem_cons_of_mem _ hd)]
        rfl
  rw [Json.quote, hescape h]

theorem scanString_plain {s : List Char} (h : IsPlain s) (rest : List Char) :
    scanString (s ++ '"' :: rest) = some (s.map .ofChar, rest) := by
  induction s with
  | nil =>
      rw [List.nil_append, scanString]
      rfl
  | cons c s ih =>
      obtain ⟨hquote, hslash, hlo, -⟩ := h c List.mem_cons_self
      rw [List.cons_append, scanString, if_neg hquote, if_neg hslash, if_neg (by omega),
        ih fun d hd => h d (List.mem_cons_of_mem _ hd)]
      rfl

/-- A field whose value is a string. -/
def fieldText (field : String × String) : List Char :=
  Json.quote field.1 ++ ':' :: Json.quote field.2

def fieldValue (field : String × String) : Text × Value :=
  (.ofString field.1, .str (.ofString field.2))

def IsPlainField (field : String × String) : Prop :=
  IsPlain field.1.toList ∧ IsPlain field.2.toList

theorem skip_quote (rest : List Char) : skip ('"' :: rest) = '"' :: rest := rfl

theorem scanField_plain {field : String × String} (h : IsPlainField field) (depth : Nat)
    (rest : List Char) :
    scanField (scanOnce depth) (fieldText field ++ rest) = .ok (fieldValue field, rest) := by
  have hrun : (scanOnce depth).run ('"' :: (field.2.toList ++ '"' :: rest)) =
      .ok (.str (.ofString field.2), rest) := by
    cases depth <;> simp [scanOnce, scanWith, scanString_plain h.2, Text.ofString]
  have hcolon : skip (':' :: '"' :: (field.2.toList ++ '"' :: rest)) =
      ':' :: '"' :: (field.2.toList ++ '"' :: rest) := rfl
  rw [fieldText, quote_plain h.1, quote_plain h.2]
  simp only [List.cons_append, List.append_assoc, List.nil_append, scanField,
    scanString_plain h.1, hcolon, skip_quote, hrun]
  rfl

theorem scanFields_last {scan : Scanner} {text rest : List Char} {field : Text × Value}
    (h : scanField scan text = .ok (field, '\x7d' :: rest)) :
    scanFields scan text = .ok ([field], rest) := by
  have hskip : skip ('\x7d' :: rest) = '\x7d' :: rest := rfl
  rw [scanFields]
  split
  · rename_i error he
    cases h.symm.trans he
  · rename_i field' rest' he
    cases h.symm.trans he
    split
    · rename_i more hmore
      cases hskip.symm.trans hmore
      rfl
    · rename_i more hmore
      cases hskip.symm.trans hmore
    · rename_i hend _
      exact absurd hskip (hend rest)

theorem scanFields_more {scan : Scanner} {text rest last : List Char} {field : Text × Value}
    {fields : List (Text × Value)} (h : scanField scan text = .ok (field, ',' :: rest))
    (hmore : scanFields scan (skip rest) = .ok (fields, last)) :
    scanFields scan text = .ok (field :: fields, last) := by
  have hskip : skip (',' :: rest) = ',' :: rest := rfl
  rw [scanFields]
  split
  · rename_i error he
    cases h.symm.trans he
  · rename_i field' rest' he
    cases h.symm.trans he
    split
    · rename_i more he
      cases hskip.symm.trans he
    · rename_i more he
      cases hskip.symm.trans he
      rw [hmore]
      rfl
    · rename_i hcomma
      exact absurd hskip (hcomma rest)

/-- Fields begin with a quote, behind which nothing is skipped. -/
theorem skip_fields {fields : List (String × String)} (hne : fields ≠ []) (rest : List Char) :
    skip (Json.commas (fields.map fieldText) ++ rest) =
      Json.commas (fields.map fieldText) ++ rest := by
  match fields with
  | [] => exact absurd rfl hne
  | [field] => rfl
  | field :: field' :: fields => rfl

theorem scanFields_plain {fields : List (String × String)} (hne : fields ≠ [])
    (h : ∀ field ∈ fields, IsPlainField field) (depth : Nat) (rest : List Char) :
    scanFields (scanOnce depth) (Json.commas (fields.map fieldText) ++ '\x7d' :: rest) =
      .ok (fields.map fieldValue, rest) := by
  induction fields with
  | nil => exact absurd rfl hne
  | cons field fields ih =>
      have hfield := scanField_plain (h field List.mem_cons_self) depth
      cases fields with
      | nil => exact scanFields_last (hfield _)
      | cons field' fields =>
          have hrest := ih (List.cons_ne_nil _ _) fun f hf => h f (List.mem_cons_of_mem _ hf)
          have htext : Json.commas ((field :: field' :: fields).map fieldText) ++ '\x7d' :: rest =
              fieldText field ++ ',' :: (Json.commas ((field' :: fields).map fieldText) ++
                '\x7d' :: rest) := by
            simp [Json.commas]
          rw [htext]
          refine scanFields_more (hfield _) ?_
          rw [skip_fields (List.cons_ne_nil _ _), hrest]

/-- An object is what its fields are. -/
theorem loads_object {depth : Nat} {text : List Char} {fields : List (Text × Value)}
    (h : scanFields (scanOnce depth) ('"' :: text) = .ok (fields, [])) :
    loads (depth + 1) ('\x7b' :: '"' :: text) = .ok (.dict fields) := by
  have hobject : scanObject (scanOnce depth) ('"' :: text) = .ok (.dict fields, []) := by
    show (scanFields (scanOnce depth) ('"' :: text)).map (fun p => (Value.dict p.1, p.2)) = _
    rw [h]
    rfl
  have hrun :
      (scanOnce (depth + 1)).run (skip ('\x7b' :: '"' :: text)) = .ok (.dict fields, []) := by
    rw [← hobject]
    rfl
  rw [loads, if_neg (by simp), hrun]
  rfl

/-- An object of plain strings is read back. -/
theorem loads_plain {fields : List (String × String)} (hne : fields ≠ [])
    (h : ∀ field ∈ fields, IsPlainField field) (depth : Nat) :
    loads (depth + 1) ('\x7b' :: Json.commas (fields.map fieldText) ++ ['\x7d']) =
      .ok (.dict (fields.map fieldValue)) := by
  have hfields := scanFields_plain hne h depth []
  obtain ⟨more, hmore⟩ : ∃ more, Json.commas (fields.map fieldText) ++ ['\x7d'] = '"' :: more := by
    match fields with
    | [] => exact absurd rfl hne
    | [field] => exact ⟨_, rfl⟩
    | field :: field' :: fields => exact ⟨_, rfl⟩
  rw [hmore] at hfields
  rw [List.cons_append, hmore]
  exact loads_object hfields

end JsonText
