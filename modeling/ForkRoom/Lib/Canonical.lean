/-
# `Lib.Canonical` — the canonical text determines the value

    value  ──dumps──→  text            the same text
      │                  │                   ⇕
    value' ──dumps──→  text'           the same value, up to the order of keys

No text of a value begins with what may follow another one, so a text can be read from
the front: its first character tells the kind of value, a string ends at the first quote
that is not escaped, a number at the first character that no number has.
-/
import ForkRoom.Lib.Json
import Mathlib.Data.Nat.Digits.Defs

namespace Json

/-! ## Values -/

/-- A character of a number. -/
def isNumberChar (c : Char) : Bool :=
  c.isDigit || c = '-' || c = '+' || c = '.' || c = 'e'

/-- The decimal text of a number that is no integer. -/
structure IsDecimal (text : String) : Prop where
  chars : ∀ c ∈ text.toList, isNumberChar c
  mark : '.' ∈ text.toList ∨ 'e' ∈ text.toList

/-- The keys of every object are distinct, every decimal is one. -/
inductive WellFormed : Json → Prop
  | null : WellFormed null
  | bool (b : Bool) : WellFormed (bool b)
  | int (i : Int) : WellFormed (int i)
  | decimal {text : String} (h : IsDecimal text) : WellFormed (decimal text)
  | str (s : String) : WellFormed (str s)
  | arr {items : List Json} (h : ∀ v ∈ items, WellFormed v) : WellFormed (arr items)
  | obj {fields : List (String × Json)} (hkeys : (fields.map Prod.fst).Nodup)
      (h : ∀ p ∈ fields, WellFormed p.2) : WellFormed (obj fields)

/-- The same value, up to the order of the keys of its objects. -/
inductive Same : Json → Json → Prop
  | null : Same null null
  | bool (b : Bool) : Same (bool b) (bool b)
  | int (i : Int) : Same (int i) (int i)
  | decimal (text : String) : Same (decimal text) (decimal text)
  | str (s : String) : Same (str s) (str s)
  | arr {xs ys : List Json} (hlength : xs.length = ys.length)
      (h : ∀ p ∈ xs.zip ys, Same p.1 p.2) : Same (arr xs) (arr ys)
  | obj {fs gs : List (String × Json)} (hkeys : (fs.map Prod.fst).Perm (gs.map Prod.fst))
      (h : ∀ k v w, (k, v) ∈ fs → (k, w) ∈ gs → Same v w) : Same (obj fs) (obj gs)

/-- Induction over the values that a value contains. -/
theorem induct {P : Json → Prop} (hnull : P null) (hbool : ∀ b, P (bool b)) (hint : ∀ i, P (int i))
    (hdecimal : ∀ text, P (decimal text)) (hstr : ∀ s, P (str s))
    (harr : ∀ items : List Json, (∀ v ∈ items, P v) → P (arr items))
    (hobj : ∀ fields : List (String × Json), (∀ p ∈ fields, P p.2) → P (obj fields)) :
    ∀ v, P v
  | null => hnull
  | bool b => hbool b
  | int i => hint i
  | decimal text => hdecimal text
  | str s => hstr s
  | arr items => harr items fun v _ => induct hnull hbool hint hdecimal hstr harr hobj v
  | obj fields => hobj fields fun p _ => induct hnull hbool hint hdecimal hstr harr hobj p.2
termination_by v => sizeOf v
decreasing_by
  · simp_wf
    have := List.sizeOf_lt_of_mem ‹_ ∈ items›
    omega
  · simp_wf
    have := List.sizeOf_lt_of_mem ‹_ ∈ fields›
    have : sizeOf p.2 < sizeOf p := by
      cases p
      simp
    omega

/-! ## Strings -/

/-- The value of a hexadecimal digit. -/
def hexValue (c : Char) : Nat := if c.isDigit then c.toNat - 48 else c.toNat - 87

theorem hexValue_digitChar {d : Nat} (h : d < 16) : hexValue (Nat.digitChar d) = d := by
  revert d
  decide

/-- The number with four hexadecimal digits. -/
def hexNumber (a b c d : Char) : Nat :=
  ((hexValue a * 16 + hexValue b) * 16 + hexValue c) * 16 + hexValue d

/-- One character, read back from the front of a literal. -/
def unescape : List Char → Option (Char × List Char)
  | '\\' :: 'u' :: a :: b :: c :: d :: rest =>
      let v := hexNumber a b c d
      if 55296 ≤ v ∧ v < 56320 then
        match rest with
        | '\\' :: 'u' :: a' :: b' :: c' :: d' :: rest =>
            some (Char.ofNat (65536 + (v - 55296) * 1024 + (hexNumber a' b' c' d' - 56320)), rest)
        | _ => none
      else some (Char.ofNat v, rest)
  | '\\' :: 'n' :: rest => some ('\n', rest)
  | '\\' :: 'r' :: rest => some ('\r', rest)
  | '\\' :: 't' :: rest => some ('\t', rest)
  | '\\' :: 'f' :: rest => some (Char.ofNat 12, rest)
  | '\\' :: 'b' :: rest => some (Char.ofNat 8, rest)
  | '\\' :: c :: rest => some (c, rest)
  | c :: rest => some (c, rest)
  | [] => none

theorem hexNumber_hex4 {n : Nat} (h : n < 65536) :
    ∃ a b c d, hex4 n = [a, b, c, d] ∧ hexNumber a b c d = n := by
  refine ⟨_, _, _, _, rfl, ?_⟩
  rw [hexNumber, hexValue_digitChar (by omega), hexValue_digitChar (by omega),
    hexValue_digitChar (by omega), hexValue_digitChar (by omega)]
  omega

/-- A character is not a surrogate. -/
theorem not_surrogate (c : Char) : ¬ (55296 ≤ c.toNat ∧ c.toNat < 57344) ∧ c.toNat < 1114112 := by
  have h := c.valid
  have hn : c.val.toNat = c.toNat := rfl
  simp only [UInt32.isValidChar, Nat.isValidChar, hn] at h
  omega

theorem unescape_escape (c : Char) (rest : List Char) :
    unescape (escape c ++ rest) = some (c, rest) := by
  have hofNat : ∀ n, c.toNat = n → Char.ofNat n = c := by
    rintro n rfl
    exact Char.ofNat_toNat c
  have hc := not_surrogate c
  unfold escape
  split
  · subst_vars
    rfl
  split
  · subst_vars
    rfl
  split
  · subst_vars
    rfl
  split
  · subst_vars
    rfl
  split
  · subst_vars
    rfl
  split
  · rename_i h
    rw [← hofNat 12 h]
    rfl
  split
  · rename_i h
    rw [← hofNat 8 h]
    rfl
  split
  · -- itself, and no backslash
    rename_i hslash _ _ _ _ _ _
    rw [List.singleton_append, unescape.eq_def]
    split <;> simp_all
  split
  · obtain ⟨a₁, a₂, a₃, a₄, heq, hval⟩ := hexNumber_hex4 (n := c.toNat) (by assumption)
    rw [heq]
    simp only [List.cons_append, List.nil_append, unescape, hval]
    rw [if_neg (by omega), Char.ofNat_toNat]
  · rename_i hlarge
    obtain ⟨a₁, a₂, a₃, a₄, heq, hval⟩ := hexNumber_hex4 (n := 55296 + (c.toNat - 65536) / 1024)
      (by omega)
    obtain ⟨b₁, b₂, b₃, b₄, heq', hval'⟩ := hexNumber_hex4 (n := 56320 + (c.toNat - 65536) % 1024)
      (by omega)
    simp only [heq, heq', List.cons_append, List.nil_append, unescape, hval, hval']
    rw [if_pos (by omega), hofNat _ (by omega)]

theorem escape_head (c : Char) : ∃ x t, escape c = x :: t ∧ x ≠ '"' := by
  unfold escape
  split
  · exact ⟨_, _, rfl, by decide⟩
  repeat' split
  all_goals first
    | exact ⟨_, _, rfl, by decide⟩
    | exact ⟨_, _, rfl, by assumption⟩

/-- The characters of a literal end at the first quote that is not escaped. -/
theorem escapes_readable {cs cs' r r' : List Char}
    (h : cs.flatMap escape ++ '"' :: r = cs'.flatMap escape ++ '"' :: r') : cs = cs' ∧ r = r' := by
  induction cs generalizing cs' with
  | nil =>
      cases cs' with
      | nil => exact ⟨rfl, (List.cons.inj h).2⟩
      | cons c' cs' =>
          obtain ⟨x, t, heq, hne⟩ := escape_head c'
          rw [List.flatMap_cons, heq] at h
          exact absurd (List.cons.inj h).1.symm hne
  | cons c cs ih =>
      cases cs' with
      | nil =>
          obtain ⟨x, t, heq, hne⟩ := escape_head c
          rw [List.flatMap_cons, heq] at h
          exact absurd (List.cons.inj h).1 hne
      | cons c' cs' =>
          rw [List.flatMap_cons, List.flatMap_cons, List.append_assoc, List.append_assoc] at h
          have hread := congrArg unescape h
          rw [unescape_escape, unescape_escape] at hread
          obtain ⟨rfl, hrest⟩ := Prod.mk.inj (Option.some.inj hread)
          obtain ⟨rfl, hr⟩ := ih hrest
          exact ⟨rfl, hr⟩

theorem quote_readable {s s' : String} {r r' : List Char} (h : quote s ++ r = quote s' ++ r') :
    s = s' ∧ r = r' := by
  simp only [quote, List.cons_append, List.append_assoc, List.nil_append, List.cons.injEq,
    true_and] at h
  obtain ⟨hs, hr⟩ := escapes_readable h
  exact ⟨String.toList_inj.mp hs, hr⟩

/-! ## Numbers -/

/-- What may follow a value does not go on with a number. -/
def Stops (r : List Char) : Prop := ∀ c ∈ r.head?, isNumberChar c = false

theorem stops_nil : Stops [] := by
  intro c hc
  cases hc

theorem stops_cons {c : Char} (r : List Char) (h : isNumberChar c = false) : Stops (c :: r) := by
  intro x hx
  cases hx
  exact h

/-- A number ends where its characters end. -/
theorem number_readable {t t' r r' : List Char} (ht : ∀ c ∈ t, isNumberChar c)
    (ht' : ∀ c ∈ t', isNumberChar c) (hr : Stops r) (hr' : Stops r') (h : t ++ r = t' ++ r') :
    t = t' ∧ r = r' := by
  have hnil : ∀ {x : List Char}, Stops x → x.takeWhile isNumberChar = [] := by
    intro x hx
    cases x with
    | nil => rfl
    | cons c x => rw [List.takeWhile_cons, hx c rfl, if_neg Bool.false_ne_true]
  have htake : ∀ {x y : List Char}, (∀ c ∈ x, isNumberChar c) → Stops y →
      (x ++ y).takeWhile isNumberChar = x := by
    intro x y hx hy
    rw [List.takeWhile_append_of_pos hx, hnil hy, List.append_nil]
  have heq : t = t' := by
    rw [← htake ht hr, h, htake ht' hr']
  subst heq
  exact ⟨rfl, List.append_cancel_left h⟩

theorem toList_toString (i : Int) : (toString i).toList =
    if 0 ≤ i then Nat.toDigits 10 i.toNat else '-' :: Nat.toDigits 10 (-i).toNat := by
  simp only [Int.toString_eq_repr, Int.repr_eq_if]
  split
  · exact Nat.toList_repr
  · simp

/-- The text of an integer has digits, and perhaps a sign. -/
theorem toString_chars (i : Int) : ∀ c ∈ (toString i).toList, c.isDigit ∨ c = '-' := by
  have hdigits : ∀ {n : Nat} {c : Char}, c ∈ Nat.toDigits 10 n → c.isDigit :=
    fun hc => Nat.isDigit_of_mem_toDigits (by decide) (by decide) hc
  rw [toList_toString]
  intro c hc
  split at hc
  · exact .inl (hdigits hc)
  · rcases List.mem_cons.mp hc with rfl | hc
    · exact .inr rfl
    · exact .inl (hdigits hc)

theorem toDigits_inj {m n : Nat} (h : Nat.toDigits 10 m = Nat.toDigits 10 n) : m = n := by
  have heq := congrArg (fun l => Nat.ofDigitChars 10 l 0) h
  simpa only [Nat.ofDigitChars_toDigits (b := 10) (by decide) (by decide)] using heq

theorem dash_not_mem_toDigits (n : Nat) : '-' ∉ Nat.toDigits 10 n := fun h =>
  absurd (Nat.isDigit_of_mem_toDigits (by decide) (by decide) h) (by decide)

theorem toString_int_inj {i j : Int} (h : (toString i).toList = (toString j).toList) : i = j := by
  rw [toList_toString, toList_toString] at h
  split at h <;> split at h
  · have := toDigits_inj h
    omega
  · exact absurd (h ▸ List.mem_cons_self) (dash_not_mem_toDigits i.toNat)
  · exact absurd (h ▸ List.mem_cons_self) (dash_not_mem_toDigits j.toNat)
  · have := toDigits_inj (List.cons.inj h).2
    omega

/-! ## Lists -/

theorem commas_cons (t : List Char) (ts : List (List Char)) :
    commas (t :: ts) = t ++ ts.flatMap (',' :: ·) := by
  induction ts generalizing t with
  | nil => simp [commas]
  | cons u ts ih =>
      show t ++ ',' :: commas (u :: ts) = _
      rw [ih, List.flatMap_cons, List.cons_append]

section
variable {α : Type} {text : α → List Char} {R : α → α → Prop} {xs ys : List α} {close : Char}
  {r r' : List Char}

/-- Read back, the texts of the members give the same members. -/
def Readable (text : α → List Char) (R : α → α → Prop) (xs ys : List α) : Prop :=
  ∀ x ∈ xs, ∀ y ∈ ys, ∀ r r', Stops r → Stops r' → text x ++ r = text y ++ r' → R x y ∧ r = r'

theorem tail_readable (hclose : close ≠ ',') (hstop : isNumberChar close = false)
    (hread : Readable text R xs ys)
    (h : (xs.map text).flatMap (',' :: ·) ++ close :: r =
      (ys.map text).flatMap (',' :: ·) ++ close :: r') :
    xs.length = ys.length ∧ (∀ p ∈ xs.zip ys, R p.1 p.2) ∧ r = r' := by
  induction xs generalizing ys with
  | nil =>
      cases ys with
      | nil => exact ⟨rfl, fun _ hp => (nomatch hp), (List.cons.inj h).2⟩
      | cons y ys => exact absurd (List.cons.inj h).1 hclose
  | cons x xs ih =>
      cases ys with
      | nil => exact absurd (List.cons.inj h).1.symm hclose
      | cons y ys =>
          simp only [List.map_cons, List.flatMap_cons, List.cons_append, List.append_assoc,
            List.cons.injEq, true_and] at h
          have hstops : ∀ (zs : List α) (r : List Char),
              Stops ((zs.map text).flatMap (',' :: ·) ++ close :: r) := by
            intro zs r
            cases zs with
            | nil => exact stops_cons _ hstop
            | cons z zs => exact stops_cons _ rfl
          obtain ⟨hxy, hrest⟩ := hread x List.mem_cons_self y List.mem_cons_self _ _ (hstops _ _)
            (hstops _ _) h
          obtain ⟨hlength, hzip, hr⟩ := ih (fun a ha b hb =>
            hread a (List.mem_cons_of_mem _ ha) b (List.mem_cons_of_mem _ hb)) hrest
          refine ⟨congrArg (· + 1) hlength, fun p hp => ?_, hr⟩
          rcases List.mem_cons.mp hp with rfl | hp
          · exact hxy
          · exact hzip p hp

/-- The members between two brackets. -/
theorem commas_readable (hclose : close ≠ ',') (hstop : isNumberChar close = false)
    (hopen : ∀ z ∈ xs ++ ys, ∃ c t, text z = c :: t ∧ c ≠ close) (hread : Readable text R xs ys)
    (h : commas (xs.map text) ++ close :: r = commas (ys.map text) ++ close :: r') :
    xs.length = ys.length ∧ (∀ p ∈ xs.zip ys, R p.1 p.2) ∧ r = r' := by
  cases xs with
  | nil =>
      cases ys with
      | nil => exact ⟨rfl, fun _ hp => (nomatch hp), (List.cons.inj h).2⟩
      | cons y ys =>
          obtain ⟨c, t, heq, hne⟩ := hopen y (by simp)
          rw [List.map_cons, commas_cons, heq] at h
          exact absurd (List.cons.inj h).1.symm hne
  | cons x xs =>
      cases ys with
      | nil =>
          obtain ⟨c, t, heq, hne⟩ := hopen x (by simp)
          rw [List.map_cons, commas_cons, heq] at h
          exact absurd (List.cons.inj h).1 hne
      | cons y ys =>
          -- with a comma in front, the first member is like the others
          refine tail_readable hclose hstop hread ?_
          simp only [List.map_cons, commas_cons, List.append_assoc] at h
          simp only [List.map_cons, List.flatMap_cons, List.cons_append, List.append_assoc, h]

end

/-! ## The parts of a text -/

theorem dumps_arr (items : List Json) :
    dumps (arr items) = '[' :: commas (items.map dumps) ++ [']'] := by
  have hitems : ∀ items : List Json, dumps.dumpsItems items = items.map dumps := by
    intro items
    induction items with
    | nil => rfl
    | cons v vs ih => rw [dumps.dumpsItems, ih, List.map_cons]
  rw [dumps, hitems]

/-- The fields in the order of their keys. -/
def sortKeys (fields : List (String × Json)) : List (String × Json) :=
  fields.insertionSort fun a b => a.1 ≤ b.1

/-- The text of a field. -/
def dumpsField (p : String × Json) : List Char := quote p.1 ++ ':' :: dumps p.2

theorem sortKeys_perm (fields : List (String × Json)) : (sortKeys fields).Perm fields :=
  List.perm_insertionSort _ _

theorem dumpsFields_eq (fields : List (String × Json)) :
    dumps.dumpsFields fields = fields.map fun p => (p.1, dumps p.2) := by
  induction fields with
  | nil => rfl
  | cons p fs ih => rw [dumps.dumpsFields, ih, List.map_cons]

theorem dumps_obj (fields : List (String × Json)) :
    dumps (obj fields) = '\x7b' :: commas ((sortKeys fields).map dumpsField) ++ ['\x7d'] := by
  have hsort : ((sortKeys fields).map fun p => (p.1, dumps p.2)) =
      (fields.map fun p => (p.1, dumps p.2)).insertionSort fun a b => a.1 ≤ b.1 :=
    List.map_insertionSort _ _ _ _ fun _ _ _ _ => Iff.rfl
  rw [dumps, dumpsFields_eq, ← hsort, List.map_map]
  rfl

/-! ## The first character -/

/-- What the first character of a text tells. -/
inductive Kind where
  | null | true | false | number | string | array | object
  deriving DecidableEq

def kind : Json → Kind
  | null => .null
  | bool true => .true
  | bool false => .false
  | int _ | decimal _ => .number
  | str _ => .string
  | arr _ => .array
  | obj _ => .object

def leadKind (c : Char) : Kind :=
  if c = 'n' then .null
  else if c = 't' then .true
  else if c = 'f' then .false
  else if c = '"' then .string
  else if c = '[' then .array
  else if c = '\x7b' then .object
  else .number

theorem leadKind_number {c : Char} (h : isNumberChar c) : leadKind c = .number ∧ c ≠ ']' := by
  have hne : ∀ {x : Char}, isNumberChar x = false → c ≠ x := by
    rintro x hx rfl
    rw [h] at hx
    cases hx
  refine ⟨?_, hne (by decide)⟩
  rw [leadKind, if_neg (hne (by decide)), if_neg (hne (by decide)), if_neg (hne (by decide)),
    if_neg (hne (by decide)), if_neg (hne (by decide)), if_neg (hne (by decide))]

theorem numberChars_int (i : Int) : ∀ c ∈ (toString i).toList, isNumberChar c := by
  intro c hc
  rcases toString_chars i c hc with h | rfl
  · simp [isNumberChar, h]
  · decide

/-- The first character of a value's text tells its kind, and is no closing bracket. -/
theorem dumps_lead {v : Json} (hv : v.WellFormed) :
    ∃ c t, dumps v = c :: t ∧ leadKind c = v.kind ∧ c ≠ ']' := by
  have hnumber : ∀ {cs : List Char}, cs ≠ [] → (∀ c ∈ cs, isNumberChar c) →
      ∃ c t, cs = c :: t ∧ leadKind c = .number ∧ c ≠ ']' := by
    intro cs hne hcs
    cases cs with
    | nil => exact absurd rfl hne
    | cons c t => exact ⟨c, t, rfl, leadKind_number (hcs c List.mem_cons_self)⟩
  cases hv with
  | null => exact ⟨_, _, rfl, by decide, by decide⟩
  | bool b => cases b <;> exact ⟨_, _, rfl, by decide, by decide⟩
  | int i =>
      refine hnumber (show (toString i).toList ≠ [] from ?_) (numberChars_int i)
      rw [toList_toString]
      split <;> simp
  | decimal h =>
      refine hnumber ?_ h.chars
      rcases h.mark with hm | hm
      · exact List.ne_nil_of_mem hm
      · exact List.ne_nil_of_mem hm
  | str s => exact ⟨_, _, rfl, rfl, by decide⟩
  | arr h =>
      rw [dumps_arr]
      exact ⟨_, _, rfl, rfl, by decide⟩
  | obj hkeys h =>
      rw [dumps_obj]
      exact ⟨_, _, rfl, rfl, by decide⟩

/-! ## Reading a text back -/

/-- A decimal is not the text of an integer. -/
theorem IsDecimal.ne_int {text : String} (h : IsDecimal text) (i : Int) :
    text.toList ≠ (toString i).toList := by
  intro heq
  have hmark := h.mark
  rw [heq] at hmark
  rcases hmark with hm | hm
  · rcases toString_chars i _ hm with hd | hd
    · exact absurd hd (by decide)
    · exact absurd hd (by decide)
  · rcases toString_chars i _ hm with hd | hd
    · exact absurd hd (by decide)
    · exact absurd hd (by decide)

/-- The fields of two objects, read in the order of their keys. -/
theorem Same.of_sorted {fs gs : List (String × Json)} (hgs : (gs.map Prod.fst).Nodup)
    (hlength : (sortKeys fs).length = (sortKeys gs).length)
    (h : ∀ x ∈ (sortKeys fs).zip (sortKeys gs), x.1.1 = x.2.1 ∧ Same x.1.2 x.2.2) :
    Same (Json.obj fs) (Json.obj gs) := by
  have hkeys : (sortKeys fs).map Prod.fst = (sortKeys gs).map Prod.fst := by
    refine List.ext_getElem (by simpa using hlength) fun i hi hi' => ?_
    rw [List.length_map] at hi hi'
    rw [List.getElem_map, List.getElem_map]
    exact (h (_, _) (List.mem_iff_getElem.mpr
      ⟨i, by rw [List.length_zip]; omega, List.getElem_zip⟩)).1
  refine .obj ?_ fun k v w hv hw => ?_
  · exact ((sortKeys_perm fs).symm.map _).trans (hkeys ▸ (sortKeys_perm gs).map _)
  · obtain ⟨i, hi, hvi⟩ := List.mem_iff_getElem.mp ((sortKeys_perm fs).mem_iff.mpr hv)
    have hi' : i < (sortKeys gs).length := hlength ▸ hi
    have hzip := h ((sortKeys fs)[i], (sortKeys gs)[i]) (List.mem_iff_getElem.mpr
      ⟨i, by rw [List.length_zip]; omega, List.getElem_zip⟩)
    rw [hvi] at hzip
    -- a key stands in one place
    have hnodup : ((sortKeys gs).map Prod.fst).Nodup :=
      ((sortKeys_perm gs).map _).nodup_iff.mpr hgs
    have heq : (sortKeys gs)[i] = (k, w) := List.inj_on_of_nodup_map hnodup (List.getElem_mem _)
      ((sortKeys_perm gs).mem_iff.mpr hw) hzip.1.symm
    rw [heq] at hzip
    exact hzip.2

/-- Two numbers with the same text. -/
theorem number_same {v v' : Json} {r r' : List Char} (hv : v.WellFormed) (hv' : v'.WellFormed)
    (hk : v.kind = .number) (hk' : v'.kind = .number) (hr : Stops r) (hr' : Stops r')
    (h : dumps v ++ r = dumps v' ++ r') : Same v v' ∧ r = r' := by
  have hchars : ∀ {v : Json}, v.WellFormed → v.kind = .number → ∀ c ∈ dumps v, isNumberChar c := by
    intro v hv hk
    cases hv with
    | int i => exact numberChars_int i
    | decimal h => exact h.chars
    | bool b => cases b <;> nomatch hk
    | _ => nomatch hk
  obtain ⟨ht, hrest⟩ := number_readable (hchars hv hk) (hchars hv' hk') hr hr' h
  refine ⟨?_, hrest⟩
  cases hv with
  | int i =>
      cases hv' with
      | int j => exact toString_int_inj ht ▸ .int i
      | decimal h' => exact absurd ht.symm (h'.ne_int i)
      | bool b => cases b <;> nomatch hk'
      | _ => nomatch hk'
  | decimal hd =>
      cases hv' with
      | int j => exact absurd ht (hd.ne_int j)
      | decimal h' => exact String.toList_inj.mp ht ▸ .decimal _
      | bool b => cases b <;> nomatch hk'
      | _ => nomatch hk'
  | bool b => cases b <;> nomatch hk
  | _ => nomatch hk

/-- **A text is read in one way.** -/
theorem dumps_readable (v : Json) : ∀ {v' : Json} {r r' : List Char}, v.WellFormed →
    v'.WellFormed → Stops r → Stops r' → dumps v ++ r = dumps v' ++ r' → Same v v' ∧ r = r' := by
  -- the first characters tell that the kinds agree
  have hkind : ∀ {v v' : Json} {r r' : List Char}, v.WellFormed → v'.WellFormed →
      dumps v ++ r = dumps v' ++ r' → v.kind = v'.kind := by
    intro v v' r r' hv hv' h
    obtain ⟨c, t, heq, hc, -⟩ := dumps_lead hv
    obtain ⟨c', t', heq', hc', -⟩ := dumps_lead hv'
    rw [heq, heq'] at h
    rw [← hc, ← hc', (List.cons.inj h).1]
  induction v using induct with
  | hnull =>
      intro v' r r' hv hv' hr hr' h
      have hk := hkind hv hv' h
      rcases v' with _ | (_ | _) | _ | _ | _ | _ | _ <;> simp only [kind, reduceCtorEq] at hk
      exact ⟨.null, List.append_cancel_left h⟩
  | hbool b =>
      intro v' r r' hv hv' hr hr' h
      have hk := hkind hv hv' h
      cases b <;> rcases v' with _ | (_ | _) | _ | _ | _ | _ | _ <;>
        simp only [kind, reduceCtorEq] at hk <;> exact ⟨.bool _, List.append_cancel_left h⟩
  | hint i =>
      intro v' r r' hv hv' hr hr' h
      exact number_same hv hv' rfl (hkind hv hv' h).symm hr hr' h
  | hdecimal text =>
      intro v' r r' hv hv' hr hr' h
      exact number_same hv hv' rfl (hkind hv hv' h).symm hr hr' h
  | hstr s =>
      intro v' r r' hv hv' hr hr' h
      have hk := hkind hv hv' h
      rcases v' with _ | (_ | _) | _ | _ | s' | _ | _ <;> simp only [kind, reduceCtorEq] at hk
      obtain ⟨rfl, hrest⟩ := quote_readable h
      exact ⟨.str s, hrest⟩
  | harr items ih =>
      intro v' r r' hv hv' hr hr' h
      have hk := hkind hv hv' h
      rcases v' with _ | (_ | _) | _ | _ | _ | items' | _ <;> simp only [kind, reduceCtorEq] at hk
      cases hv with
      | arr hitems =>
          cases hv' with
          | arr hitems' =>
              simp only [dumps_arr, List.cons_append, List.append_assoc, List.nil_append,
                List.cons.injEq, true_and] at h
              have hread : Readable dumps Same items items' := fun x hx y hy r r' hr hr' heq =>
                ih x hx (hitems x hx) (hitems' y hy) hr hr' heq
              obtain ⟨hlength, hzip, hrest⟩ := commas_readable (by decide) rfl (fun z hz => by
                have hz : z.WellFormed := (List.mem_append.mp hz).elim (hitems z) (hitems' z)
                obtain ⟨c, t, heq, -, hc⟩ := dumps_lead hz
                exact ⟨c, t, heq, hc⟩) hread h
              exact ⟨.arr hlength hzip, hrest⟩
  | hobj fields ih =>
      intro v' r r' hv hv' hr hr' h
      have hk := hkind hv hv' h
      rcases v' with _ | (_ | _) | _ | _ | _ | _ | fields' <;> simp only [kind, reduceCtorEq] at hk
      cases hv with
      | obj hkeys hfields =>
          cases hv' with
          | obj hkeys' hfields' =>
              simp only [dumps_obj, List.cons_append, List.append_assoc, List.nil_append,
                List.cons.injEq, true_and] at h
              have hread : Readable dumpsField (fun p q => p.1 = q.1 ∧ Same p.2 q.2)
                  (sortKeys fields) (sortKeys fields') := by
                intro p hp q hq r r' hr hr' heq
                simp only [dumpsField, List.append_assoc, List.cons_append] at heq
                obtain ⟨hkey, heq⟩ := quote_readable heq
                have hp := (sortKeys_perm fields).mem_iff.mp hp
                have hq := (sortKeys_perm fields').mem_iff.mp hq
                obtain ⟨hsame, hrest⟩ := ih p hp (hfields p hp) (hfields' q hq) hr hr'
                  (List.cons.inj heq).2
                exact ⟨⟨hkey, hsame⟩, hrest⟩
              obtain ⟨hlength, hzip, hrest⟩ := commas_readable (by decide) rfl
                (fun z _ => ⟨_, _, rfl, by decide⟩) hread h
              exact ⟨.of_sorted hkeys' hlength hzip, hrest⟩

/-! ## Writing the same value -/

/-- Objects with the same keys, and the same text under each, have the same fields in order. -/
theorem fields_eq {fs gs : List (String × Json)} (hfs : (fs.map Prod.fst).Nodup)
    (hgs : (gs.map Prod.fst).Nodup) (hkeys : (fs.map Prod.fst).Perm (gs.map Prod.fst))
    (h : ∀ k v w, (k, v) ∈ fs → (k, w) ∈ gs → dumps v = dumps w) :
    (sortKeys fs).map dumpsField = (sortKeys gs).map dumpsField := by
  -- a field as its key and its text
  have hsorted : ∀ l : List (String × Json), ((sortKeys l).map fun p => (p.1, dumps p.2)).Pairwise
      fun a b => a.1 ≤ b.1 := fun l =>
    List.pairwise_map.mpr (List.pairwise_insertionSort (fun a b : String × Json => a.1 ≤ b.1) l)
  have hmem : ∀ {l : List (String × Json)} {e : String × List Char},
      e ∈ l.map (fun p => (p.1, dumps p.2)) → ∃ v, (e.1, v) ∈ l ∧ dumps v = e.2 := by
    intro l e he
    obtain ⟨⟨k, v⟩, hp, rfl⟩ := List.mem_map.mp he
    exact ⟨v, hp, rfl⟩
  have hnodup : ∀ {l : List (String × Json)}, (l.map Prod.fst).Nodup →
      (l.map fun p => (p.1, dumps p.2)).Nodup := by
    intro l hl
    refine List.Nodup.of_map Prod.fst ?_
    rw [List.map_map]
    exact hl
  have hperm : (fs.map fun p => (p.1, dumps p.2)).Perm (gs.map fun p => (p.1, dumps p.2)) := by
    refine (List.perm_ext_iff_of_nodup (hnodup hfs) (hnodup hgs)).mpr fun e =>
      ⟨fun he => ?_, fun he => ?_⟩
    · obtain ⟨v, hv, htext⟩ := hmem he
      obtain ⟨⟨k, w⟩, hw, hk⟩ := List.mem_map.mp (hkeys.mem_iff.mp (List.mem_map_of_mem hv))
      have hk : k = e.1 := hk
      subst hk
      exact List.mem_map.mpr ⟨_, hw, Prod.ext rfl ((h _ v w hv hw).symm.trans htext)⟩
    · obtain ⟨w, hw, htext⟩ := hmem he
      obtain ⟨⟨k, v⟩, hv, hk⟩ := List.mem_map.mp (hkeys.mem_iff.mpr (List.mem_map_of_mem hw))
      have hk : k = e.1 := hk
      subst hk
      exact List.mem_map.mpr ⟨_, hv, Prod.ext rfl ((h _ v w hv hw).trans htext)⟩
  have hentries : (sortKeys fs).map (fun p => (p.1, dumps p.2)) =
      (sortKeys gs).map fun p => (p.1, dumps p.2) := by
    refine List.Perm.eq_of_pairwise (fun a b ha hb hab hba => ?_) (hsorted fs) (hsorted gs)
      (((sortKeys_perm fs).map _).trans (hperm.trans ((sortKeys_perm gs).symm.map _)))
    have hkey : a.1 = b.1 := le_antisymm hab hba
    obtain ⟨v, hv, htext⟩ := hmem ha
    obtain ⟨w, hw, htext'⟩ := hmem hb
    have hv := (sortKeys_perm fs).mem_iff.mp hv
    have hw := (sortKeys_perm gs).mem_iff.mp hw
    exact Prod.ext hkey (htext.symm.trans ((h _ v w hv (hkey ▸ hw)).trans htext'))
  have hfield : dumpsField = (fun e : String × List Char => quote e.1 ++ ':' :: e.2) ∘
      fun p => (p.1, dumps p.2) := rfl
  rw [hfield, ← List.map_map, hentries, List.map_map]

theorem Same.dumps_eq {v v' : Json} (h : Same v v') (hv : v.WellFormed) (hv' : v'.WellFormed) :
    dumps v = dumps v' := by
  induction h with
  | null | bool | int | decimal | str => rfl
  | @arr xs ys hlength hzip ih =>
      cases hv with
      | arr hx =>
          cases hv' with
          | arr hy =>
              have hmap : xs.map dumps = ys.map dumps := by
                refine List.ext_getElem (by simpa using hlength) fun i hi hi' => ?_
                rw [List.length_map] at hi hi'
                rw [List.getElem_map, List.getElem_map]
                exact ih (xs[i], ys[i]) (List.mem_iff_getElem.mpr
                  ⟨i, by rw [List.length_zip]; omega, List.getElem_zip⟩)
                  (hx _ (List.getElem_mem _)) (hy _ (List.getElem_mem _))
              rw [dumps_arr, dumps_arr, hmap]
  | @obj fs gs hkeys hfields ih =>
      cases hv with
      | obj hfs hvs =>
          cases hv' with
          | obj hgs hws =>
              rw [dumps_obj, dumps_obj, fields_eq hfs hgs hkeys fun k v w hv hw =>
                ih k v w hv hw (hvs _ hv) (hws _ hw)]

/-- **Canonical text.** -/
theorem dumps_eq_iff {v v' : Json} (hv : v.WellFormed) (hv' : v'.WellFormed) :
    dumps v = dumps v' ↔ Same v v' := by
  constructor
  · intro h
    refine (dumps_readable v hv hv' stops_nil stops_nil ?_).1
    rw [h]
  · exact fun h => h.dumps_eq hv hv'

end Json
