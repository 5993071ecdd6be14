/-
# `Lib.Json` — JSON values and their canonical text

The values that a JSON column or a message payload can hold, and the canonical
text `dumps`: keys sorted by code point, no white space, every character
outside printable ASCII escaped.  A number with a fraction is kept as the
decimal text it is printed as.  Texts are lists of characters.
-/
import Mathlib.Data.List.Sort
import Mathlib.Data.String.Basic

/-- A JSON value; the fields of an object in the order they were written. -/
inductive Json where
  | null
  | bool (b : Bool)
  | int (i : Int)
  | decimal (text : String)
  | str (s : String)
  | arr (items : List Json)
  | obj (fields : List (String × Json))

namespace Json

/-- A string, or `null`. -/
def ofOption (o : Option String) : Json :=
  match o with
  | some s => str s
  | none => null

/-! ## The canonical text -/

/-- The last four hexadecimal digits of `n`. -/
def hex4 (n : Nat) : List Char :=
  [Nat.digitChar (n / 4096 % 16), Nat.digitChar (n / 256 % 16), Nat.digitChar (n / 16 % 16),
    Nat.digitChar (n % 16)]

/-- One character of a string literal; outside the basic plane, a surrogate pair. -/
def escape (c : Char) : List Char :=
  if c = '"' then ['\\', '"']
  else if c = '\\' then ['\\', '\\']
  else if c = '\n' then ['\\', 'n']
  else if c = '\r' then ['\\', 'r']
  else if c = '\t' then ['\\', 't']
  else if c.toNat = 12 then ['\\', 'f']
  else if c.toNat = 8 then ['\\', 'b']
  else if 32 ≤ c.toNat ∧ c.toNat ≤ 126 then [c]
  else if c.toNat < 65536 then '\\' :: 'u' :: hex4 c.toNat
  else
    let v := c.toNat - 65536
    '\\' :: 'u' :: hex4 (55296 + v / 1024) ++ '\\' :: 'u' :: hex4 (56320 + v % 1024)

def quote (s : String) : List Char :=
  '"' :: s.toList.flatMap escape ++ ['"']

/-- The texts with a comma between them. -/
def commas : List (List Char) → List Char
  | [] => []
  | [t] => t
  | t :: ts => t ++ ',' :: commas ts

/-- `json.dumps(value, sort_keys=True, separators=(",", ":"), ensure_ascii=True)`. -/
def dumps : Json → List Char
  | null => "null".toList
  | bool true => "true".toList
  | bool false => "false".toList
  | int i => (toString i).toList
  | decimal text => text.toList
  | str s => quote s
  | arr items => '[' :: commas (dumpsItems items) ++ [']']
  | obj fields =>
      let sorted := (dumpsFields fields).insertionSort fun a b => a.1 ≤ b.1
      '\x7b' :: commas (sorted.map fun p => quote p.1 ++ ':' :: p.2) ++ ['\x7d']
where
  dumpsItems : List Json → List (List Char)
    | [] => []
    | v :: vs => dumps v :: dumpsItems vs
  dumpsFields : List (String × Json) → List (String × List Char)
    | [] => []
    | (k, v) :: fs => (k, dumps v) :: dumpsFields fs

end Json
