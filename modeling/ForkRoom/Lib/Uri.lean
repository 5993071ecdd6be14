/-
# `Lib.Uri` — the components of a URI reference

The five components of RFC 3986, read off a text from the front as its regular expression
does:

    scheme      before the first ':', if none of '/', '?', '#' comes earlier
    authority   after "//", up to the next '/', '?' or '#'
    path        up to the next '?' or '#'
    query       after '?', up to the next '#'
    fragment    after '#'

An absolute path behind a text leaves its scheme and its authority as they are
(`parse_append`).  What comes of the rest depends on the first '?' and the first '#'
(`splitPath_fragment`, `splitPath_query`, `splitPath_path`).
-/
import ForkRoom.Lib.Text
import Mathlib.Data.List.TakeWhile

namespace Uri

structure Components where
  scheme : Option (List Char)
  authority : Option (List Char)
  path : List Char
  query : Option (List Char)
  fragment : Option (List Char)
  deriving DecidableEq

/-- The text up to a delimiter. -/
def upTo (delimiters text : List Char) : List Char := text.takeWhile (· ∉ delimiters)

/-- The text from a delimiter on. -/
def fromOn (delimiters text : List Char) : List Char := text.dropWhile (· ∉ delimiters)

/-- What follows a delimiter, if the text begins with it. -/
def after (delimiter : Char) : List Char → Option (List Char)
  | [] => none
  | c :: rest => if c = delimiter then some rest else none

def splitScheme (text : List Char) : Option (List Char) × List Char :=
  let scheme := upTo [':', '/', '?', '#'] text
  match after ':' (fromOn [':', '/', '?', '#'] text) with
  | some rest => if scheme = [] then (none, text) else (some scheme, rest)
  | none => (none, text)

def splitAuthority (text : List Char) : Option (List Char) × List Char :=
  match (after '/' text).bind (after '/') with
  | some rest => (some (upTo ['/', '?', '#'] rest), fromOn ['/', '?', '#'] rest)
  | none => (none, text)

/-- The path, the query and the fragment. -/
def splitPath (text : List Char) : List Char × Option (List Char) × Option (List Char) :=
  let rest := fromOn ['?', '#'] text
  (upTo ['?', '#'] text, (after '?' rest).map (upTo ['#']), after '#' (fromOn ['#'] rest))

/-- What is left behind the scheme and the authority. -/
def relative (text : List Char) : List Char := (splitAuthority (splitScheme text).2).2

def parse (text : List Char) : Components :=
  let (path, query, fragment) := splitPath (relative text)
  ⟨(splitScheme text).1, (splitAuthority (splitScheme text).2).1, path, query, fragment⟩

/-- The parameters of a query: what is between the '&', the empty ones left out. -/
def parameters (query : Option (List Char)) : List (List Char) :=
  Text.words (· = '&') (query.getD [])

/-! ## Up to a delimiter -/

section
variable {ds text text' : List Char} {c : Char}

theorem fromOn_eq_nil (h : ∀ c ∈ text, c ∉ ds) : fromOn ds text = [] :=
  List.dropWhile_eq_nil_iff.mpr fun c hc => decide_eq_true (h c hc)

theorem upTo_eq_self (h : ∀ c ∈ text, c ∉ ds) : upTo ds text = text :=
  List.takeWhile_eq_self_iff.mpr fun c hc => decide_eq_true (h c hc)

/-- A delimiter ends what comes before it. -/
theorem upTo_cons (h : ∀ x ∈ text, x ∉ ds) (hc : c ∈ ds) : upTo ds (text ++ c :: text') = text := by
  rw [upTo, List.takeWhile_append_of_pos fun x hx => decide_eq_true (h x hx),
    List.takeWhile_cons_of_neg (by simpa using hc), List.append_nil]

theorem fromOn_cons (h : ∀ x ∈ text, x ∉ ds) (hc : c ∈ ds) :
    fromOn ds (text ++ c :: text') = c :: text' := by
  rw [fromOn, List.dropWhile_append_of_pos fun x hx => decide_eq_true (h x hx),
    List.dropWhile_cons_of_neg (by simpa using hc)]

/-- A text has a first delimiter, or none. -/
theorem delimiter_cases (ds text : List Char) : (∀ x ∈ text, x ∉ ds) ∨
    ∃ before c behind, text = before ++ c :: behind ∧ (∀ x ∈ before, x ∉ ds) ∧ c ∈ ds := by
  induction text with
  | nil => exact .inl fun x hx => (nomatch hx)
  | cons a text ih =>
      by_cases ha : a ∈ ds
      · exact .inr ⟨[], a, text, rfl, fun x hx => (nomatch hx), ha⟩
      · rcases ih with hnone | ⟨before, c, behind, rfl, hbefore, hc⟩
        · refine .inl fun x hx => ?_
          rcases List.mem_cons.mp hx with rfl | hx
          · exact ha
          · exact hnone x hx
        · refine .inr ⟨a :: before, c, behind, rfl, fun x hx => ?_, hc⟩
          rcases List.mem_cons.mp hx with rfl | hx
          · exact ha
          · exact hbefore x hx

end

/-! ## Behind a text -/

section
variable {text more : List Char}

/-- An absolute path behind a text leaves the scheme of it. -/
theorem splitScheme_append (text more : List Char) :
    splitScheme (text ++ '/' :: more) =
      ((splitScheme text).1, (splitScheme text).2 ++ '/' :: more) := by
  rcases delimiter_cases [':', '/', '?', '#'] text with hnone | ⟨before, c, behind, rfl, hb, hc⟩
  · have hfrom : fromOn [':', '/', '?', '#'] (text ++ '/' :: more) = '/' :: more :=
      fromOn_cons hnone (by decide)
    simp [splitScheme, hfrom, fromOn_eq_nil hnone, after]
  · rw [List.append_assoc, List.cons_append]
    simp only [splitScheme, upTo_cons hb hc, fromOn_cons hb hc, after]
    split
    · rename_i rest hrest
      split at hrest
      · cases hrest
        split <;> simp [*]
      · cases hrest
    · rename_i hrest
      split at hrest
      · cases hrest
      · simp [*]

/-- And its authority, unless it makes one. -/
theorem splitAuthority_append (hslash : text ≠ ['/']) (hmore : more.head? ≠ some '/') :
    splitAuthority (text ++ '/' :: more) =
      ((splitAuthority text).1, (splitAuthority text).2 ++ '/' :: more) := by
  have hpath : ((after '/' ('/' :: more)).bind (after '/')) = none := by
    cases more with
    | nil => rfl
    | cons a more =>
        have ha : a ≠ '/' := fun h => hmore (by rw [h]; rfl)
        simp [after, ha]
  rcases text with _ | ⟨a, _ | ⟨b, rest⟩⟩
  · rw [List.nil_append, splitAuthority, hpath]
    rfl
  · have ha : a ≠ '/' := fun h => hslash (by rw [h])
    simp [splitAuthority, after, ha]
  · by_cases hab : a = '/' ∧ b = '/'
    · obtain ⟨rfl, rfl⟩ := hab
      simp only [splitAuthority, after, List.cons_append, if_true, Option.bind_some]
      rcases delimiter_cases ['/', '?', '#'] rest with hnone | ⟨before, c, behind, rfl, hb, hc⟩
      · rw [upTo_cons hnone (by decide), fromOn_cons hnone (by decide), upTo_eq_self hnone,
          fromOn_eq_nil hnone, List.nil_append]
      · rw [List.append_assoc, List.cons_append, upTo_cons hb hc, fromOn_cons hb hc,
          upTo_cons hb hc, fromOn_cons hb hc, List.cons_append]
    · have hnone : ∀ t : List Char, (after '/' (a :: b :: t)).bind (after '/') = none := by
        intro t
        by_cases ha : a = '/'
        · have hb : b ≠ '/' := fun hb => hab ⟨ha, hb⟩
          simp [after, ha, hb]
        · simp [after, ha]
      simp only [splitAuthority, List.cons_append, hnone]

theorem splitScheme_suffix (text : List Char) : (splitScheme text).2 <:+ text := by
  rcases delimiter_cases [':', '/', '?', '#'] text with hnone | ⟨before, c, behind, rfl, hb, hc⟩
  · rw [splitScheme, fromOn_eq_nil hnone]
    exact List.suffix_refl _
  · simp only [splitScheme, upTo_cons hb hc, fromOn_cons hb hc, after]
    split
    · rename_i rest hrest
      split at hrest
      · cases hrest
        split
        · exact List.suffix_refl _
        · exact ⟨before ++ [c], by simp⟩
      · cases hrest
    · exact List.suffix_refl _

/-- The scheme and the authority are those of the text in front, and what is left of it
stands before the path. -/
theorem parse_append (htext : text.getLast? ≠ some '/') (hmore : more.head? ≠ some '/') :
    (splitScheme (text ++ '/' :: more)).1 = (splitScheme text).1 ∧
    (splitAuthority (splitScheme (text ++ '/' :: more)).2).1 =
      (splitAuthority (splitScheme text).2).1 ∧
    relative (text ++ '/' :: more) = relative text ++ '/' :: more := by
  have hslash : (splitScheme text).2 ≠ ['/'] := by
    intro h
    obtain ⟨front, hfront⟩ := splitScheme_suffix text
    rw [h] at hfront
    rw [← hfront, List.getLast?_append] at htext
    exact htext rfl
  rw [relative, splitScheme_append, splitAuthority_append hslash hmore]
  exact ⟨rfl, rfl, rfl⟩

/-- An absolute path has neither. -/
theorem parse_absolute (hmore : more.head? ≠ some '/') :
    parse ('/' :: more) = 
      ⟨none, none, (splitPath ('/' :: more)).1, (splitPath ('/' :: more)).2.1,
        (splitPath ('/' :: more)).2.2⟩ := by
  obtain ⟨h₁, h₂, h₃⟩ := @parse_append [] more (by simp) hmore
  rw [List.nil_append] at h₁ h₂ h₃
  have hrel : relative [] = [] := rfl
  rw [hrel, List.nil_append] at h₃
  rw [parse, h₁, h₂, h₃]
  rfl

end

/-! ## The path, the query and the fragment -/

section
variable {path query text fragment : List Char}

theorem splitPath_path (hp : ∀ x ∈ path, x ∉ ['?', '#']) : splitPath path = (path, none, none) := by
  rw [splitPath, fromOn_eq_nil hp, upTo_eq_self hp]
  rfl

/-- A path in front of a path. -/
theorem splitPath_append (hp : ∀ x ∈ path, x ∉ ['?', '#']) :
    splitPath (path ++ text) = (path ++ (splitPath text).1, (splitPath text).2) := by
  have hp' : ∀ x ∈ path, decide (x ∉ ['?', '#']) = true := fun x hx => decide_eq_true (hp x hx)
  have hup : upTo ['?', '#'] (path ++ text) = path ++ upTo ['?', '#'] text :=
    List.takeWhile_append_of_pos hp'
  have hfrom : fromOn ['?', '#'] (path ++ text) = fromOn ['?', '#'] text :=
    List.dropWhile_append_of_pos hp'
  rw [splitPath, hup, hfrom]
  rfl

theorem splitPath_query (hp : ∀ x ∈ path, x ∉ ['?', '#']) (hq : '#' ∉ query) :
    splitPath (path ++ '?' :: query) = (path, some query, none) := by
  have hnone : ∀ x ∈ query, x ∉ ['#'] := by
    intro x hx hm
    rw [List.mem_singleton] at hm
    exact hq (hm ▸ hx)
  have hall : ∀ x ∈ '?' :: query, x ∉ ['#'] := by
    intro x hx
    rcases List.mem_cons.mp hx with rfl | hx
    · decide
    · exact hnone x hx
  rw [splitPath, upTo_cons hp (by decide), fromOn_cons hp (by decide), fromOn_eq_nil hall]
  simp [after, upTo_eq_self hnone]

theorem splitPath_fragment (ht : '#' ∉ text) : splitPath (text ++ '#' :: fragment) =
    ((splitPath text).1, (splitPath text).2.1, some fragment) := by
  have hnone : ∀ x ∈ text, x ∉ ['#'] := by
    intro x hx hm
    rw [List.mem_singleton] at hm
    exact ht (hm ▸ hx)
  rcases delimiter_cases ['?', '#'] text with hp | ⟨path, c, query, rfl, hp, hc⟩
  · rw [splitPath_path hp, splitPath, upTo_cons hp (by decide), fromOn_cons hp (by decide)]
    rfl
  · have hc : c = '?' := by
      rcases List.mem_cons.mp hc with rfl | hc
      · rfl
      · rw [List.mem_singleton] at hc
        exact absurd (hc ▸ by simp) ht
    subst hc
    have hq : '#' ∉ query := fun hm => ht (by simp [hm])
    have hq' : ∀ x ∈ query, x ∉ ['#'] := fun x hx => hnone x (by simp [hx])
    rw [splitPath_query hp hq, List.append_assoc, List.cons_append, splitPath,
      upTo_cons hp (by decide), fromOn_cons hp (by decide)]
    have hall : ∀ x ∈ '?' :: query, x ∉ ['#'] := by
      intro x hx
      rcases List.mem_cons.mp hx with rfl | hx
      · decide
      · exact hq' x hx
    have hfrom : fromOn ['#'] (('?' :: query) ++ '#' :: fragment) = '#' :: fragment :=
      fromOn_cons hall (by decide)
    rw [List.cons_append] at hfrom
    simp [hfrom, after, upTo_cons hq']

end

end Uri
