/-
# `Model.Parsing` — times and identifiers, written and read back

`isoformat()` and `datetime.fromisoformat(text)` of a `datetime` with or without an offset
from UTC, `str(uuid)` and `UUID(text)`, as the standard library documents them.

    fromisoformat    YYYY-MM-DD, YYYYMMDD, YYYY-Www[-D], YYYYWww[D]; any separator;
                     HH[:MM[:SS[.f…]]] or HHMMSS; Z, ±HH:MM[:SS[.f…]] or ±HHMM
    UUID             `urn:` and `uuid:`, braces and dashes are left out; what is left is 32
                     characters that `int(…, 16)` takes

Reading what was written gives the time and the identifier back.
-/
import ForkRoom.Model.Keys
import ForkRoom.Model.Requests
import Mathlib.Data.Nat.Digits.Lemmas

namespace ForkRoom

/-! ## Times -/

/-- A time on the wall, in microseconds since 1970 by its own clock. -/
abbrev WallTime := {t : Datetime // datetimeMin ≤ t ∧ t ≤ datetimeMax}

/-- `utcoffset()`, in microseconds. -/
abbrev UtcOffset := {o : Int // -86400000000 < o ∧ o < 86400000000}

/-- A `datetime`: what its clock shows, and the offset of the clock, if it is aware. -/
structure PyDatetime where
  wall : WallTime
  utcoffset : Option UtcOffset
  deriving DecidableEq

/-- The instant of an aware time. -/
def PyDatetime.instant (t : PyDatetime) : Datetime :=
  t.wall.val - (t.utcoffset.map Subtype.val).getD 0

/-- `_format_time` -/
def formatTime (t : WallTime) : List Char :=
  zeroPadded 2 (Datetime.secondOfDay t.val / 3600) ++
    ':' :: (zeroPadded 2 (Datetime.secondOfDay t.val / 60 % 60) ++
    ':' :: (zeroPadded 2 (Datetime.secondOfDay t.val % 60) ++
    (if Datetime.microsecond t.val = 0 then [] else
      '.' :: zeroPadded 6 (Datetime.microsecond t.val))))

/-- `_format_offset` -/
def formatOffset (o : UtcOffset) : List Char :=
  let micros := o.val.natAbs
  let seconds := micros / 1000000
  (if o.val < 0 then '-' else '+') :: (zeroPadded 2 (seconds / 3600) ++
    ':' :: (zeroPadded 2 (seconds / 60 % 60) ++
    (if seconds % 60 = 0 ∧ micros % 1000000 = 0 then [] else
      ':' :: (zeroPadded 2 (seconds % 60) ++
        if micros % 1000000 = 0 then [] else '.' :: zeroPadded 6 (micros % 1000000)))))

/-- `isoformat()` -/
def PyDatetime.isoformat (t : PyDatetime) : List Char :=
  let date := civilDay (Datetime.dayNumber t.wall.val)
  zeroPadded 4 date.year.toNat ++ '-' :: (zeroPadded 2 date.month.toNat ++
    '-' :: (zeroPadded 2 date.day.toNat ++ 'T' :: (formatTime t.wall ++
    (t.utcoffset.map formatOffset).getD [])))

/-! ## `fromisoformat` -/

/-- `int` of the first `k` characters, all of them digits. -/
def number (k : Nat) (text : List Char) : Option Nat :=
  let digits := text.take k
  if digits.length = k ∧ digits.all Char.isDigit then some (Nat.ofDigitChars 10 digits 0) else none

def isLeap (year : Int) : Bool := year % 4 = 0 && (year % 100 ≠ 0 || year % 400 = 0)

/-- `_days_in_month` -/
def daysInMonth (year month : Int) : Int :=
  if month = 2 then if isLeap year then 29 else 28
  else if month = 4 ∨ month = 6 ∨ month = 9 ∨ month = 11 then 30
  else 31

/-- The day of a civil date, counted as `civilDay` does. -/
def dayOfCivil (year month day : Int) : Int :=
  let fromMarch := if month ≤ 2 then year - 1 else year
  let yoe := fromMarch % 400
  let mp := if month ≤ 2 then month + 9 else month - 3
  fromMarch / 400 * 146097 + (365 * yoe + yoe / 4 - yoe / 100) + ((153 * mp + 2) / 5 + day - 1)

/-- `_check_date_fields` -/
def checkDate (year month day : Int) : Option Int :=
  if 1 ≤ year ∧ year ≤ 9999 ∧ 1 ≤ month ∧ month ≤ 12 ∧ 1 ≤ day ∧ day ≤ daysInMonth year month then
    some (dayOfCivil year month day)
  else none

/-- `_isoweek_to_gregorian`; day 306 is the first of the year 1, a Monday. -/
def isoweekToDay (year week day : Int) : Option Int :=
  let firstDay := dayOfCivil year 1 1
  let firstWeekday := (firstDay - 306) % 7
  let long := firstWeekday = 3 ∨ (firstWeekday = 2 ∧ isLeap year)
  if 1 ≤ year ∧ year ≤ 9999 ∧ 1 ≤ week ∧ (week ≤ 52 ∨ (week = 53 ∧ long)) ∧ 1 ≤ day ∧ day ≤ 7 then
    let week1Monday := firstDay - firstWeekday + if firstWeekday > 3 then 7 else 0
    some (week1Monday + (week - 1) * 7 + (day - 1))
  else none

/-- `_find_isoformat_datetime_separator` -/
def findSeparator (text : List Char) : Option Nat :=
  if text.length = 7 then some 7
  else if text[4]? = some '-' then
    if text[5]? = some 'W' then
      if 8 < text.length ∧ text[8]? = some '-' then
        if text.length = 9 then none
        else if (text[10]?).any Char.isDigit then some 8
        else some 10
      else some 8
    else some 10
  else if text[4]? = some 'W' then
    let index := 7 + ((text.drop 7).takeWhile Char.isDigit).length
    if index < 9 then some index else if index % 2 = 0 then some 7 else some 8
  else some 8

/-- `_parse_isoformat_date` -/
def parseIsoformatDate (text : List Char) : Option Int := do
  let year ← number 4 text
  let hasSep := text[4]? = some '-'
  let rest := text.drop (if hasSep then 5 else 4)
  if rest.head? = some 'W' then
    let week ← number 2 (rest.drop 1)
    let rest := rest.drop 3
    if rest = [] then isoweekToDay year week 1
    else if (rest.head? = some '-') ↔ hasSep then
      let day ← number 1 (rest.drop (if hasSep then 1 else 0))
      isoweekToDay year week day
    else none
  else
    let month ← number 2 rest
    let rest := rest.drop 2
    if (rest.head? = some '-') ↔ hasSep then
      let day ← number 2 (rest.drop (if hasSep then 1 else 0))
      checkDate year month day
    else none

/-- A fraction of a second, of which six digits count. -/
def parseFraction : List Char → Option Nat
  | [] => some 0
  | c :: digits =>
      if (c = '.' ∨ c = ',') ∧ digits ≠ [] ∧ digits.all Char.isDigit then
        (number (min 6 digits.length) digits).map (· * 10 ^ (6 - digits.length))
      else none

/-- `_parse_hh_mm_ss_ff` -/
def parseHhMmSsFf (text : List Char) : Option (Nat × Nat × Nat × Nat) := do
  let hour ← number 2 text
  match text.drop 2 with
  | [] => some (hour, 0, 0, 0)
  | c :: rest =>
      let hasSep := c = ':'
      let text := if hasSep then rest else c :: rest
      let minute ← number 2 text
      match text.drop 2 with
      | [] => some (hour, minute, 0, 0)
      | c :: rest =>
          if hasSep ∧ c ≠ ':' then none
          else
            let text := if hasSep then rest else c :: rest
            let second ← number 2 text
            let microsecond ← parseFraction (text.drop 2)
            some (hour, minute, second, microsecond)

/-- `timezone(delta)` -/
def timezone (micros : Int) : Option UtcOffset :=
  if h : -86400000000 < micros ∧ micros < 86400000000 then some ⟨micros, h⟩ else none

/-- The offset behind its sign. -/
def parseOffset (sign : Char) (text : List Char) : Option UtcOffset := do
  if sign = 'Z' then
    if text = [] then timezone 0 else none
  else if text.length = 0 ∨ text.length = 1 ∨ text.length = 3 then none
  else
    let (hours, minutes, seconds, micros) ← parseHhMmSsFf text
    let delta : Int := ((hours * 60 + minutes) * 60 + seconds) * 1000000 + micros
    timezone (if sign = '-' then -delta else delta)

/-- `_parse_isoformat_time` -/
def parseIsoformatTime (text : List Char) :
    Option ((Nat × Nat × Nat × Nat) × Option UtcOffset) := do
  if text.length < 2 then none
  else
    match ['-', '+', 'Z'].find? (· ∈ text) with
    | none =>
        let time ← parseHhMmSsFf text
        some (time, none)
    | some sign =>
        let time ← parseHhMmSsFf (text.takeWhile (· ≠ sign))
        let offset ← parseOffset sign ((text.dropWhile (· ≠ sign)).drop 1)
        some (time, some offset)

/-- `datetime(…)` of a day that exists. -/
def datetimeOf (day : Int) (time : Nat × Nat × Nat × Nat) (offset : Option UtcOffset) :
    Option PyDatetime :=
  let (hour, minute, second, microsecond) := time
  let wall : Datetime := (day - 719468) * 86400000000 +
    (((hour * 60 + minute) * 60 + second) * 1000000 + microsecond : Nat)
  if h : (datetimeMin ≤ wall ∧ wall ≤ datetimeMax) ∧
      hour ≤ 23 ∧ minute ≤ 59 ∧ second ≤ 59 ∧ microsecond ≤ 999999 then
    some ⟨⟨wall, h.1⟩, offset⟩
  else none

/-- `datetime.fromisoformat(text)`; `none` is a `ValueError`. -/
def fromisoformat (text : List Char) : Option PyDatetime := do
  if text.length < 7 then none
  else
    let separator ← findSeparator text
    let day ← parseIsoformatDate (text.take separator)
    if text.length ≤ separator then datetimeOf day (0, 0, 0, 0) none
    else
      -- behind a separator there is a time
      let (time, offset) ← parseIsoformatTime (text.drop (separator + 1))
      datetimeOf day time offset

/-! ## `UUID` -/

/-- `text.replace(word, "")`; what is still to be left out of an occurrence is skipped. -/
def removeAll (word : List Char) (skip : Nat) : List Char → List Char
  | [] => []
  | c :: text =>
      if 0 < skip then removeAll word (skip - 1) text
      else if word.isPrefixOf (c :: text) then removeAll word (word.length - 1) text
      else c :: removeAll word 0 text

/-- The digits zero of the scripts that have decimal digits. -/
def decimalZeros : List Nat :=
  [48, 1632, 1776, 1984, 2406, 2534, 2662, 2790, 2918, 3046, 3174, 3302, 3430, 3558, 3664, 3792,
    3872, 4160, 4240, 6112, 6160, 6470, 6608, 6784, 6800, 6992, 7088, 7232, 7248, 42528, 43216,
    43264, 43472, 43504, 43600, 44016, 65296, 66720, 68912, 69734, 69872, 69942, 70096, 70384,
    70736, 70864, 71248, 71360, 71472, 71904, 72016, 72784, 73040, 73120, 73552, 92768, 92864,
    93008, 120782, 120792, 120802, 120812, 120822, 123200, 123632, 124144, 125264, 130032]

/-- A hexadecimal digit, or a decimal digit of any script. -/
def intDigit (c : Char) : Option Nat :=
  if 'a' ≤ c ∧ c ≤ 'f' then some (c.toNat - 87)
  else if 'A' ≤ c ∧ c ≤ 'F' then some (c.toNat - 55)
  else (decimalZeros.find? fun z => z ≤ c.toNat ∧ c.toNat < z + 10).map (c.toNat - ·)

/-- Digits, and single underscores between them. -/
def intDigits (value : Nat) (afterDigit : Bool) : List Char → Option Nat
  | [] => if afterDigit then some value else none
  | c :: text =>
      if c = '_' then if afterDigit then intDigits value false text else none
      else
        match intDigit c with
        | some d => intDigits (value * 16 + d) true text
        | none => none

/-- `int(text, 16)` of a text without a minus sign. -/
def int16 (text : List Char) : Option Nat :=
  let text := ((text.dropWhile isSpace).reverse.dropWhile isSpace).reverse
  let text := if text.head? = some '+' then text.drop 1 else text
  let hasPrefix := text.take 2 = ['0', 'x'] ∨ text.take 2 = ['0', 'X']
  let text := if hasPrefix then text.drop 2 else text
  let text := if hasPrefix ∧ text.head? = some '_' then text.drop 1 else text
  intDigits 0 false text

def isBrace (c : Char) : Bool := c = '\x7b' || c = '\x7d'

/-- `UUID(text)`; `none` is a `ValueError`. -/
def parseUuid (text : List Char) : Option UUID :=
  let hex := removeAll "uuid:".toList 0 (removeAll "urn:".toList 0 text)
  let hex := (((hex.dropWhile isBrace).reverse.dropWhile isBrace).reverse).filter (· ≠ '-')
  if hex.length = 32 then
    match int16 hex with
    | some n => if n < 2 ^ 128 then some (.ofNat 128 n) else none
    | none => none
  else none

/-! ## The civil date of a day exists -/

/-- The days of an era before a year of it, counted from March. -/
def daysBefore (yoe : Nat) : Nat := 365 * yoe + yoe / 4 - yoe / 100

/-- The days of an era, less its leap days. -/
def commonDays (doe : Nat) : Nat := doe - doe / 1460 + doe / 36524 - doe / 146096

theorem commonDays_mono {a b : Nat} (h : a ≤ b) : commonDays a ≤ commonDays b := by
  induction h with
  | refl => exact Nat.le_refl _
  | step _ ih =>
      refine Nat.le_trans ih ?_
      unfold commonDays
      omega

theorem le_commonDays : ∀ yoe : Fin 400, 365 * yoe.val ≤ commonDays (daysBefore yoe.val) := by
  decide +kernel

/-- The year of a day ends after it. -/
theorem lt_daysBefore {doe yoe : Nat} (hy : yoe = commonDays doe / 365) (h : yoe + 1 < 400) :
    doe < daysBefore (yoe + 1) := by
  by_contra hge
  have hmono := commonDays_mono (Nat.le_of_not_lt hge)
  have hfull := le_commonDays ⟨yoe + 1, h⟩
  simp only at hfull
  omega

/-- The parts of a day: an era of 400 years, a year of it from March, and a day of that year. -/
theorem civilDay_parts (z : Int) : ∃ (era : Int) (yoe doy mp day : Nat),
    yoe < 400 ∧ doy ≤ 365 ∧
    (doy = 365 → (yoe + 1) % 4 = 0 ∧ ((yoe + 1) % 100 ≠ 0 ∨ yoe = 399)) ∧
    mp = (5 * doy + 2) / 153 ∧ day + (153 * mp + 2) / 5 = doy + 1 ∧
    z = era * 146097 + daysBefore yoe + doy ∧
    (civilDay z).month = (if mp < 10 then mp + 3 else mp - 9 : Int) ∧
    (civilDay z).day = day ∧
    (civilDay z).year = yoe + era * 400 + if mp < 10 then 0 else 1 := by
  obtain ⟨doe, hdoe⟩ : ∃ doe : Nat, z - z / 146097 * 146097 = doe :=
    ⟨(z - z / 146097 * 146097).toNat, by omega⟩
  have hlt : doe < 146097 := by omega
  obtain ⟨yoe, hyoe⟩ : ∃ yoe, yoe = commonDays doe / 365 := ⟨_, rfl⟩
  have hcast : ((doe : Int) - doe / 1460 + doe / 36524 - doe / 146096) / 365 = (yoe : Int) := by
    rw [hyoe, commonDays]
    omega
  have hyear : yoe < 400 := by
    rw [hyoe, commonDays]
    omega
  have hfirst : 0 ≤ (doe : Int) := by omega
  have hera : (doe : Int) < 146097 := by omega
  obtain ⟨hlo, hhi⟩ := dayOfYear_bounds hfirst hera rfl rfl rfl rfl rfl
  rw [hcast] at hlo hhi
  have hend : doe - daysBefore yoe ≤ 365 ∧ (doe - daysBefore yoe = 365 →
      (yoe + 1) % 4 = 0 ∧ ((yoe + 1) % 100 ≠ 0 ∨ yoe = 399)) := by
    by_cases hlast : yoe + 1 < 400
    · have hnext := lt_daysBefore hyoe hlast
      have hquads : (yoe + 1) / 4 = yoe / 4 + if (yoe + 1) % 4 = 0 then 1 else 0 := by
        split <;> omega
      have hcenturies : (yoe + 1) / 100 = yoe / 100 + if (yoe + 1) % 100 = 0 then 1 else 0 := by
        split <;> omega
      unfold daysBefore at hnext ⊢
      split at hquads <;> split at hcenturies <;> omega
    · have : yoe = 399 := by omega
      subst this
      unfold daysBefore
      omega
  have hday : (doe : Int) - (365 * yoe + yoe / 4 - yoe / 100) = (doe - daysBefore yoe : Nat) := by
    unfold daysBefore
    omega
  obtain ⟨doy, hdoy⟩ : ∃ doy, doe - daysBefore yoe = doy := ⟨_, rfl⟩
  rw [hdoy] at hend hday
  obtain ⟨mp, hmp⟩ : ∃ mp, mp = (5 * doy + 2) / 153 := ⟨_, rfl⟩
  have hmonth : (5 * (doy : Int) + 2) / 153 = mp := by omega
  obtain ⟨day, hd⟩ : ∃ day, day + (153 * mp + 2) / 5 = doy + 1 :=
    ⟨doy + 1 - (153 * mp + 2) / 5, by omega⟩
  refine ⟨z / 146097, yoe, doy, mp, day, hyear, hend.1, hend.2, hmp, hd, ?_, ?_, ?_, ?_⟩
  · unfold daysBefore at hdoy ⊢
    omega
  · simp only [civilDay, hdoe, hcast, hday, hmonth]
    split <;> split <;> omega
  · simp only [civilDay, hdoe, hcast, hday, hmonth]
    omega
  · simp only [civilDay, hdoe, hcast, hday, hmonth]
    congr 1
    split <;> split <;> split <;> omega

theorem checkDate_bounds {year month day z : Int} (h : checkDate year month day = some z) :
    1 ≤ year ∧ year ≤ 9999 ∧ 1 ≤ month ∧ month ≤ 12 ∧ 1 ≤ day ∧ day ≤ 31 := by
  rw [checkDate] at h
  split at h
  · rename_i hfields
    have hdays : daysInMonth year month ≤ 31 := by
      unfold daysInMonth
      split
      · split <;> omega
      · split <;> omega
    omega
  · cases h

/-- A day of the year stands in its month. -/
theorem checkDate_civilDay {z : Int} (hmin : 306 ≤ z) (hmax : z ≤ 3652364) :
    checkDate (civilDay z).year (civilDay z).month (civilDay z).day = some z := by
  have hpos := civilDay_year_pos hmin
  obtain ⟨era, yoe, doy, mp, day, hyoe, hdoy, hleap, hmp, hd, hz, hmonth, hday, hyear⟩ :=
    civilDay_parts z
  have hbefore : daysBefore yoe = 365 * yoe + yoe / 4 - yoe / 100 := rfl
  have hmod : (yoe + era * 400 : Int) % 400 = yoe := by omega
  have hdiv : (yoe + era * 400 : Int) / 400 = era := by omega
  by_cases hearly : mp < 10
  · -- March to December
    rw [if_pos hearly] at hmonth hyear
    rw [Int.add_zero] at hyear
    rw [hyear] at hpos
    rw [hmonth, hday, hyear]
    have hdays : (day : Int) ≤ daysInMonth (yoe + era * 400) (mp + 3) := by
      rw [daysInMonth, if_neg (by omega)]
      split <;> omega
    have hback : dayOfCivil (yoe + era * 400) (mp + 3) day = z := by
      simp only [dayOfCivil]
      rw [if_neg (by omega), if_neg (by omega), hmod, hdiv]
      omega
    rw [checkDate, if_pos ⟨hpos, by omega, by omega, by omega, by omega, hdays⟩, hback]
  · -- January and February belong to the year before
    rw [if_neg hearly] at hmonth hyear
    rw [hyear] at hpos
    rw [hmonth, hday, hyear]
    have hdays : (day : Int) ≤ daysInMonth (yoe + era * 400 + 1) (mp - 9) := by
      rw [daysInMonth]
      by_cases hfeb : mp = 11
      · subst hfeb
        rw [if_pos (by omega)]
        by_cases hlast : doy = 365
        · have hyears := hleap hlast
          have hisLeap : isLeap (yoe + era * 400 + 1) = true := by
            simp only [isLeap, Bool.and_eq_true, Bool.or_eq_true, decide_eq_true_eq]
            omega
          rw [if_pos hisLeap]
          omega
        · split <;> omega
      · rw [if_neg (by omega), if_neg (by omega)]
        omega
    have hback : dayOfCivil (yoe + era * 400 + 1) (mp - 9) day = z := by
      simp only [dayOfCivil]
      rw [if_pos (by omega), if_pos (by omega), Int.add_sub_cancel, hmod, hdiv]
      omega
    rw [checkDate, if_pos ⟨hpos, by omega, by omega, by omega, by omega, hdays⟩, hback]

/-! ## What was written is read -/

section
variable {k v : Nat} {rest : List Char}

theorem number_zeroPadded (hk : 0 < k) (hv : v < 10 ^ k) (rest : List Char) :
    number k (zeroPadded k v ++ rest) = some v := by
  have hlen := length_zeroPadded hk hv
  have htake : (zeroPadded k v ++ rest).take k = zeroPadded k v := by
    rw [List.take_append_of_le_length (by omega), List.take_of_length_le (by omega)]
  have hdigits : (zeroPadded k v).all Char.isDigit := by
    rw [List.all_eq_true]
    intro c hc
    exact Text.isDigit_of_mem_padded hc
  rw [number, htake, if_pos ⟨hlen, hdigits⟩]
  exact congrArg some (Text.ofDigitChars_padded _ v)

theorem drop_zeroPadded (hk : 0 < k) (hv : v < 10 ^ k) (rest : List Char) :
    (zeroPadded k v ++ rest).drop k = rest := by
  have hlen := length_zeroPadded hk hv
  rw [List.drop_append, List.drop_of_length_le (by omega), hlen, Nat.sub_self]
  rfl

/-- Of characters that can stand in a time of day. -/
def IsClock (text : List Char) : Prop := ∀ c ∈ text, c.isDigit ∨ c = ':' ∨ c = '.'

theorem isClock_zeroPadded (k v : Nat) : IsClock (zeroPadded k v) :=
  fun _ hc => .inl (Text.isDigit_of_mem_padded hc)

theorem IsClock.append {a b : List Char} (ha : IsClock a) (hb : IsClock b) : IsClock (a ++ b) := by
  intro c hc
  rcases List.mem_append.mp hc with hc | hc
  · exact ha c hc
  · exact hb c hc

theorem IsClock.cons {a : List Char} {c : Char} (hc : c = ':' ∨ c = '.') (ha : IsClock a) :
    IsClock (c :: a) := by
  intro x hx
  rcases List.mem_cons.mp hx with rfl | hx
  · exact .inr hc
  · exact ha x hx

theorem isClock_nil : IsClock [] := fun _ hc => nomatch hc

/-- No sign stands in a time of day. -/
theorem IsClock.not_mem {text : List Char} (h : IsClock text) {c : Char}
    (hc : c.isDigit = false ∧ c ≠ ':' ∧ c ≠ '.') : c ∉ text := by
  intro hm
  rcases h c hm with hd | rfl | rfl
  · rw [hc.1] at hd
    cases hd
  · exact hc.2.1 rfl
  · exact hc.2.2 rfl

theorem isClock_fraction (micros : Nat) :
    IsClock (if micros = 0 then [] else '.' :: zeroPadded 6 micros) := by
  split
  · exact isClock_nil
  · exact (isClock_zeroPadded 6 micros).cons (.inr rfl)

theorem parseFraction_micros {micros : Nat} (h : micros < 1000000) :
    parseFraction (if micros = 0 then [] else '.' :: zeroPadded 6 micros) = some micros := by
  split
  · rename_i hzero
    rw [hzero]
    rfl
  · have hlen : (zeroPadded 6 micros).length = 6 := length_zeroPadded (by decide) (by omega)
    have hnumber := number_zeroPadded (k := 6) (by decide) (by omega : micros < 10 ^ 6) []
    rw [List.append_nil] at hnumber
    have hne : zeroPadded 6 micros ≠ [] := by
      intro he
      rw [he] at hlen
      cases hlen
    have hdigits : (zeroPadded 6 micros).all Char.isDigit := by
      rw [List.all_eq_true]
      intro c hc
      exact Text.isDigit_of_mem_padded hc
    rw [parseFraction, if_pos ⟨.inl rfl, hne, hdigits⟩, hlen]
    simp [hnumber]

/-- Hours, minutes, seconds and a fraction. -/
theorem parseHhMmSsFf_full {hour minute second micros : Nat} (hh : hour < 100) (hm : minute < 100)
    (hs : second < 100) (hmicros : micros < 1000000) :
    parseHhMmSsFf (zeroPadded 2 hour ++ ':' :: (zeroPadded 2 minute ++ ':' ::
      (zeroPadded 2 second ++ if micros = 0 then [] else '.' :: zeroPadded 6 micros))) =
        some (hour, minute, second, micros) := by
  have hfraction := parseFraction_micros hmicros
  have hnumber : ∀ {n : Nat}, n < 100 → ∀ rest, number 2 (zeroPadded 2 n ++ rest) = some n :=
    fun hn => number_zeroPadded (by decide) hn
  have hdrop : ∀ {n : Nat}, n < 100 → ∀ rest, (zeroPadded 2 n ++ rest).drop 2 = rest :=
    fun hn => drop_zeroPadded (by decide) hn
  simp only [parseHhMmSsFf, hnumber hh, hdrop hh, Option.bind_eq_bind, Option.bind_some, if_true]
  simp only [hnumber hm, hdrop hm, Option.bind_some]
  simp [hnumber hs, hdrop hs, hfraction]

/-- Hours and minutes. -/
theorem parseHhMmSsFf_short {hour minute : Nat} (hh : hour < 100) (hm : minute < 100) :
    parseHhMmSsFf (zeroPadded 2 hour ++ ':' :: zeroPadded 2 minute) =
      some (hour, minute, 0, 0) := by
  have hnumber : ∀ {n : Nat}, n < 100 → ∀ rest, number 2 (zeroPadded 2 n ++ rest) = some n :=
    fun hn => number_zeroPadded (by decide) hn
  have hdrop : ∀ {n : Nat}, n < 100 → ∀ rest, (zeroPadded 2 n ++ rest).drop 2 = rest :=
    fun hn => drop_zeroPadded (by decide) hn
  have hm' := hnumber hm []
  have hd' := hdrop hm []
  rw [List.append_nil] at hm' hd'
  simp only [parseHhMmSsFf, hnumber hh, hdrop hh, Option.bind_eq_bind, Option.bind_some, if_true]
  simp only [hm', hd', Option.bind_some]

/-- `timezone(offset)` of the offset of a `datetime`. -/
theorem timezone_val (o : UtcOffset) : timezone o.val = some o := dif_pos o.property

theorem length_two {n : Nat} (h : n < 100) : (zeroPadded 2 n).length = 2 :=
  length_zeroPadded (by decide) (by omega)

/-- What is behind the sign of an offset. -/
def offsetText (micros : Nat) : List Char :=
  let seconds := micros / 1000000
  zeroPadded 2 (seconds / 3600) ++ ':' :: (zeroPadded 2 (seconds / 60 % 60) ++
    (if seconds % 60 = 0 ∧ micros % 1000000 = 0 then [] else
      ':' :: (zeroPadded 2 (seconds % 60) ++
        if micros % 1000000 = 0 then [] else '.' :: zeroPadded 6 (micros % 1000000))))

theorem isClock_offsetText (micros : Nat) : IsClock (offsetText micros) := by
  refine (isClock_zeroPadded _ _).append (.cons (.inl rfl) ((isClock_zeroPadded _ _).append ?_))
  split
  · exact isClock_nil
  · exact .cons (.inl rfl) ((isClock_zeroPadded _ _).append (isClock_fraction _))

/-- An offset has five characters, or eight and more. -/
theorem length_offsetText {micros : Nat} (h : micros < 86400000000) :
    (offsetText micros).length = 5 ∨ 8 ≤ (offsetText micros).length := by
  have hh : (zeroPadded 2 (micros / 1000000 / 3600)).length = 2 := length_two (by omega)
  have hm : (zeroPadded 2 (micros / 1000000 / 60 % 60)).length = 2 := length_two (by omega)
  have hs : (zeroPadded 2 (micros / 1000000 % 60)).length = 2 := length_two (by omega)
  unfold offsetText
  dsimp only
  split
  · left
    simp [hh, hm]
  · right
    simp only [List.length_append, List.length_cons, hh, hm, hs]
    omega

theorem parseHhMmSsFf_offsetText {micros : Nat} (h : micros < 86400000000) :
    parseHhMmSsFf (offsetText micros) = some (micros / 1000000 / 3600, micros / 1000000 / 60 % 60,
      micros / 1000000 % 60, micros % 1000000) := by
  unfold offsetText
  dsimp only
  split
  · rename_i hzero
    rw [List.append_nil, parseHhMmSsFf_short (by omega) (by omega), hzero.1, hzero.2]
  · exact parseHhMmSsFf_full (by omega) (by omega) (by omega) (by omega)

theorem parseOffset_offsetText (o : UtcOffset) :
    parseOffset (if o.val < 0 then '-' else '+') (offsetText o.val.natAbs) = some o := by
  have hbound : o.val.natAbs < 86400000000 := by
    have := o.property
    omega
  have hsign : (if o.val < 0 then '-' else '+') ≠ 'Z' := by
    split <;> decide
  have hlength : ¬ ((offsetText o.val.natAbs).length = 0 ∨ (offsetText o.val.natAbs).length = 1 ∨
      (offsetText o.val.natAbs).length = 3) := by
    have := length_offsetText hbound
    omega
  rw [parseOffset, if_neg hsign, if_neg hlength, parseHhMmSsFf_offsetText hbound]
  have hdelta : (if (if o.val < 0 then '-' else '+') = '-' then
      -(((((o.val.natAbs / 1000000 / 3600 : Nat) : Int) * 60 +
        (o.val.natAbs / 1000000 / 60 % 60 : Nat)) * 60 + (o.val.natAbs / 1000000 % 60 : Nat)) *
          1000000 + (o.val.natAbs % 1000000 : Nat))
      else ((((o.val.natAbs / 1000000 / 3600 : Nat) : Int) * 60 +
        (o.val.natAbs / 1000000 / 60 % 60 : Nat)) * 60 + (o.val.natAbs / 1000000 % 60 : Nat)) *
          1000000 + (o.val.natAbs % 1000000 : Nat)) = o.val := by
    by_cases hneg : o.val < 0
    · rw [if_pos hneg, if_pos rfl]
      omega
    · rw [if_neg hneg, if_neg (by decide)]
      omega
  simp only [Option.bind_eq_bind, Option.bind_some]
  rw [hdelta, timezone_val]

end

/-- A letter does not begin a number. -/
theorem head?_zeroPadded {k v : Nat} {c : Char} {rest : List Char} (hk : 0 < k) (hv : v < 10 ^ k)
    (hc : c.isDigit = false) : (zeroPadded k v ++ rest).head? ≠ some c := by
  have hlen := length_zeroPadded hk hv
  intro h
  cases hz : zeroPadded k v with
  | nil =>
      rw [hz] at hlen
      simp only [List.length_nil] at hlen
      omega
  | cons d ds =>
      rw [hz, List.cons_append, List.head?_cons, Option.some.injEq] at h
      have hd : d.isDigit := Text.isDigit_of_mem_padded (hz ▸ List.mem_cons_self)
      rw [h, hc] at hd
      cases hd

/-- `YYYY-MM-DD` -/
def dateText (year month day : Nat) : List Char :=
  zeroPadded 4 year ++ '-' :: (zeroPadded 2 month ++ '-' :: zeroPadded 2 day)

section
variable {year month day : Nat} (hy : year < 10000) (hm : month < 100) (hd : day < 100)
include hy hm

theorem length_dateText (hd : day < 100) : (dateText year month day).length = 10 := by
  have h₄ : (zeroPadded 4 year).length = 4 := length_zeroPadded (by decide) (by omega)
  simp [dateText, h₄, length_two hm, length_two hd]

theorem findSeparator_dateText (rest : List Char) :
    findSeparator (dateText year month day ++ rest) = some 10 := by
  have h₄ : (zeroPadded 4 year).length = 4 := length_zeroPadded (by decide) (by omega)
  have hlong : (dateText year month day ++ rest).length ≠ 7 := by
    simp only [dateText, List.length_append, List.length_cons, h₄, length_two hm]
    omega
  have hdash : (dateText year month day ++ rest)[4]? = some '-' := by
    rw [dateText, List.append_assoc, List.getElem?_append_right (by omega), h₄]
    rfl
  have hno : ¬ (dateText year month day ++ rest)[5]? = some 'W' := by
    rw [dateText, List.append_assoc, List.getElem?_append_right (by omega), h₄]
    simp only [List.cons_append, List.append_assoc]
    rw [show 5 - 4 = 0 + 1 from rfl, List.getElem?_cons_succ, ← List.head?_eq_getElem?]
    exact head?_zeroPadded (by decide) (by omega) (by decide)
  rw [findSeparator, if_neg hlong, if_pos hdash, if_neg hno]

theorem parseIsoformatDate_dateText (hd : day < 100) :
    parseIsoformatDate (dateText year month day) = checkDate year month day := by
  have h₄ : (zeroPadded 4 year).length = 4 := length_zeroPadded (by decide) (by omega)
  have hdash : (dateText year month day)[4]? = some '-' := by
    rw [dateText, List.getElem?_append_right (by omega), h₄]
    rfl
  have hyear : number 4 (dateText year month day) = some year :=
    number_zeroPadded (by decide) (by omega) _
  have hrest :
      (dateText year month day).drop 5 = zeroPadded 2 month ++ '-' :: zeroPadded 2 day := by
    rw [dateText, List.drop_append, List.drop_of_length_le (by omega), h₄]
    rfl
  have hweek : ¬ (zeroPadded 2 month ++ '-' :: zeroPadded 2 day).head? = some 'W' :=
    head?_zeroPadded (by decide) (by omega) (by decide)
  have hmonth := number_zeroPadded (k := 2) (by decide) (by omega : month < 10 ^ 2)
    ('-' :: zeroPadded 2 day)
  have hdrop := drop_zeroPadded (k := 2) (by decide) (by omega : month < 10 ^ 2)
    ('-' :: zeroPadded 2 day)
  have hday := number_zeroPadded (k := 2) (by decide) (by omega : day < 10 ^ 2) []
  rw [List.append_nil] at hday
  simp only [parseIsoformatDate, hyear, hdash, if_true, hrest, hweek, if_false, hmonth, hdrop,
    Option.bind_eq_bind, Option.bind_some]
  simp [hday]

end

/-- The time of day in front of a sign, and the offset behind it. -/
theorem parseIsoformatTime_append {clock offset : List Char} {sign : Char}
    {time : Nat × Nat × Nat × Nat} {o : UtcOffset} (hsign : sign = '-' ∨ sign = '+')
    (hclock : IsClock clock) (hoffset : IsClock offset) (hlen : 2 ≤ clock.length)
    (htime : parseHhMmSsFf clock = some time) (ho : parseOffset sign offset = some o) :
    parseIsoformatTime (clock ++ sign :: offset) = some (time, some o) := by
  have hfind : ['-', '+', 'Z'].find? (· ∈ clock ++ sign :: offset) = some sign := by
    rcases hsign with rfl | rfl
    · simp
    · have hclock' := hclock.not_mem (c := '-') (by decide)
      have hoffset' := hoffset.not_mem (c := '-') (by decide)
      simp [hclock', hoffset']
  have hsplain : sign.isDigit = false ∧ sign ≠ ':' ∧ sign ≠ '.' := by
    rcases hsign with rfl | rfl <;> decide
  have hwhile : ∀ c ∈ clock, decide (c ≠ sign) = true := by
    intro c hc
    refine decide_eq_true ?_
    rintro rfl
    exact hclock.not_mem hsplain hc
  have htake : (clock ++ sign :: offset).takeWhile (· ≠ sign) = clock := by
    rw [List.takeWhile_append_of_pos hwhile]
    simp
  have hdrop : (clock ++ sign :: offset).dropWhile (· ≠ sign) = sign :: offset := by
    rw [List.dropWhile_append_of_pos hwhile]
    simp
  have hlong : ¬ (clock ++ sign :: offset).length < 2 := by
    rw [List.length_append]
    omega
  rw [parseIsoformatTime, if_neg hlong, hfind]
  simp only [htake, hdrop, htime, Option.bind_eq_bind, Option.bind_some, List.drop_succ_cons,
    List.drop_zero, ho]

theorem isClock_formatTime (t : WallTime) : IsClock (formatTime t) :=
  (isClock_zeroPadded _ _).append (.cons (.inl rfl) ((isClock_zeroPadded _ _).append
    (.cons (.inl rfl) ((isClock_zeroPadded _ _).append (isClock_fraction _)))))

theorem secondOfDay_lt (t : Datetime) : t.secondOfDay < 86400 := by
  have h : ∀ s : Int, (s % 86400).toNat < 86400 := by omega
  exact h _

theorem microsecond_lt (t : Datetime) : t.microsecond < 1000000 := by
  have h : ∀ s : Int, (s % 1000000).toNat < 1000000 := by omega
  exact h _

theorem parseHhMmSsFf_formatTime (t : WallTime) :
    parseHhMmSsFf (formatTime t) = some (Datetime.secondOfDay t.val / 3600,
      Datetime.secondOfDay t.val / 60 % 60, Datetime.secondOfDay t.val % 60,
      Datetime.microsecond t.val) := by
  have hs := secondOfDay_lt t.val
  exact parseHhMmSsFf_full (by omega) (by omega) (by omega) (microsecond_lt t.val)

theorem datetimeOf_eq {day : Int} {hour minute second micros : Nat} (t : WallTime)
    (hwall : (day - 719468) * 86400000000 +
      (((hour * 60 + minute) * 60 + second) * 1000000 + micros : Nat) = (show Int from t.val))
    (htime : hour ≤ 23 ∧ minute ≤ 59 ∧ second ≤ 59 ∧ micros ≤ 999999)
    (offset : Option UtcOffset) :
    datetimeOf day (hour, minute, second, micros) offset = some ⟨t, offset⟩ := by
  obtain ⟨w, hw⟩ := t
  simp only at hwall
  subst hwall
  exact dif_pos ⟨hw, htime⟩

/-- The parts of a time make it. -/
theorem datetimeOf_parts (t : WallTime) (offset : Option UtcOffset) :
    datetimeOf (Datetime.dayNumber t.val) (Datetime.secondOfDay t.val / 3600,
      Datetime.secondOfDay t.val / 60 % 60, Datetime.secondOfDay t.val % 60,
      Datetime.microsecond t.val) offset = some ⟨t, offset⟩ := by
  have hs := secondOfDay_lt t.val
  have hu := microsecond_lt t.val
  have hparts : ∀ w : Int, (w / 86400000000 + 719468 - 719468) * 86400000000 +
      ((((w / 1000000 % 86400).toNat / 3600 * 60 + (w / 1000000 % 86400).toNat / 60 % 60) * 60 +
        (w / 1000000 % 86400).toNat % 60) * 1000000 + (w % 1000000).toNat : Nat) = w := by
    intro w
    omega
  exact datetimeOf_eq t (hparts t.val) ⟨by omega, by omega, by omega, by omega⟩ offset

theorem dayNumber_bounds (t : WallTime) :
    306 ≤ Datetime.dayNumber t.val ∧ Datetime.dayNumber t.val ≤ 3652364 := by
  refine ⟨Datetime.dayNumber_min t.property.1, ?_⟩
  have h : (show Int from t.val) ≤ 253402300799999999 := t.property.2
  show (show Int from t.val) / 86400000000 + 719468 ≤ 3652364
  omega

theorem formatOffset_eq (o : UtcOffset) :
    formatOffset o = (if o.val < 0 then '-' else '+') :: offsetText o.val.natAbs := rfl

/-- What `isoformat` writes of an aware time is read back as that time. -/
theorem fromisoformat_isoformat (t : PyDatetime) (o : UtcOffset) (ho : t.utcoffset = some o) :
    fromisoformat t.isoformat = some t := by
  obtain ⟨hmin, hmax⟩ := dayNumber_bounds t.wall
  have hcheck := checkDate_civilDay hmin hmax
  obtain ⟨year, month, day, hyear, hmonth, hday, hy, hm, hd⟩ :
      ∃ year month day : Nat, (civilDay (Datetime.dayNumber t.wall.val)).year = year ∧
        (civilDay (Datetime.dayNumber t.wall.val)).month = month ∧
        (civilDay (Datetime.dayNumber t.wall.val)).day = day ∧
        year < 10000 ∧ month < 100 ∧ day < 100 := by
    have hbounds := checkDate_bounds hcheck
    exact ⟨_, _, _, (Int.toNat_of_nonneg (by omega)).symm, (Int.toNat_of_nonneg (by omega)).symm,
      (Int.toNat_of_nonneg (by omega)).symm, by omega, by omega, by omega⟩
  have htext : t.isoformat = dateText year month day ++
      'T' :: (formatTime t.wall ++ formatOffset o) := by
    simp [PyDatetime.isoformat, dateText, hyear, hmonth, hday, ho]
  rw [hyear, hmonth, hday] at hcheck
  have hlen := length_dateText hy hm hd
  have htake : t.isoformat.take 10 = dateText year month day := by
    rw [htext, List.take_append_of_le_length (by omega), List.take_of_length_le (by omega)]
  have hdrop : t.isoformat.drop 11 = formatTime t.wall ++ formatOffset o := by
    rw [htext, List.drop_append, List.drop_of_length_le (by omega), hlen]
    rfl
  have hclock : 2 ≤ (formatTime t.wall).length := by
    have hs := secondOfDay_lt t.wall.val
    have htwo : (zeroPadded 2 (Datetime.secondOfDay t.wall.val / 3600)).length = 2 :=
      length_two (by omega)
    rw [formatTime, List.length_append, htwo]
    omega
  have hsign : (if o.val < 0 then '-' else '+') = '-' ∨ (if o.val < 0 then '-' else '+') = '+' := by
    split
    · exact .inl rfl
    · exact .inr rfl
  have htime := parseIsoformatTime_append hsign (isClock_formatTime t.wall)
    (isClock_offsetText o.val.natAbs) hclock (parseHhMmSsFf_formatTime t.wall)
    (parseOffset_offsetText o)
  have hlong : 10 < t.isoformat.length := by
    rw [htext, List.length_append, hlen, List.length_cons]
    omega
  have hseparator : findSeparator t.isoformat = some 10 := by
    rw [htext]
    exact findSeparator_dateText hy hm _
  rw [fromisoformat, if_neg (by omega), hseparator]
  simp only [Option.bind_eq_bind, Option.bind_some, htake, hdrop,
    parseIsoformatDate_dateText hy hm hd, hcheck, if_neg (Nat.not_le.mpr hlong)]
  rw [formatOffset_eq, htime]
  simp only [Option.bind_some]
  rw [datetimeOf_parts, ← ho]

/-! ## Identifiers, written and read -/

theorem removeAll_of_not_mem {c : Char} {word text : List Char} (h : c ∉ text) :
    removeAll (c :: word) 0 text = text := by
  induction text with
  | nil => rfl
  | cons d text ih =>
      obtain ⟨hd, htext⟩ := not_or.mp (fun hm => h (List.mem_cons.mpr hm))
      have hne : ¬ (c :: word).isPrefixOf (d :: text) = true := by
        simp [hd]
      rw [removeAll, if_neg (Nat.lt_irrefl 0), if_neg hne, ih htext]

/-- `text.strip(…)` of a text of other characters. -/
theorem strip_of_not_mem {p : Char → Bool} {text : List Char} (h : ∀ c ∈ text, p c = false) :
    ((text.dropWhile p).reverse.dropWhile p).reverse = text := by
  have hdrop : ∀ {l : List Char}, (∀ c ∈ l, p c = false) → l.dropWhile p = l := by
    intro l hl
    cases l with
    | nil => rfl
    | cons c l => rw [List.dropWhile_cons_of_neg (by rw [hl c List.mem_cons_self]; decide)]
  rw [hdrop h, hdrop (fun c hc => h c (List.mem_reverse.mp hc)), List.reverse_reverse]

/-- What holds of the sixteen digits holds of the characters of a number. -/
theorem all_hexDigits {p : Char → Prop} (h : ∀ d : Fin 16, p (Nat.digitChar d.val)) {v n : Nat} :
    ∀ c ∈ hexDigits v n, p c := by
  induction n generalizing v with
  | zero => exact fun _ hc => nomatch hc
  | succ n ih =>
      intro c hc
      rcases List.mem_append.mp hc with hc | hc
      · exact ih c hc
      · rw [List.mem_singleton.mp hc]
        exact h ⟨v % 16, Nat.mod_lt _ (by decide)⟩

theorem intDigit_digitChar : ∀ d : Fin 16, intDigit (Nat.digitChar d.val) = some d.val := by
  decide

theorem intDigits_hexDigits {n v : Nat} (hv : v < 16 ^ n) (acc : Nat) (after : Bool)
    (rest : List Char) :
    intDigits acc after (hexDigits v n ++ rest) =
      intDigits (acc * 16 ^ n + v) (after || decide (0 < n)) rest := by
  induction n generalizing v rest with
  | zero =>
      have hzero : v = 0 := by simpa using hv
      simp [hexDigits, hzero]
  | succ n ih =>
      have hlo : v % 16 < 16 := Nat.mod_lt _ (by decide)
      have hunderscore : ∀ d : Fin 16, Nat.digitChar d.val ≠ '_' := by decide
      have hdigit := intDigit_digitChar ⟨v % 16, hlo⟩
      have hvalue : (acc * 16 ^ n + v / 16) * 16 + v % 16 = acc * 16 ^ (n + 1) + v := by
        rw [pow_succ, Nat.add_mul, Nat.mul_assoc]
        omega
      rw [hexDigits, List.append_assoc, ih (by rw [pow_succ] at hv; omega), List.singleton_append,
        intDigits, if_neg (hunderscore ⟨v % 16, hlo⟩)]
      simp only [hdigit, hvalue]
      simp

theorem int16_hexDigits {v : Nat} (hv : v < 16 ^ 32) : int16 (hexDigits v 32) = some v := by
  have hspace : ∀ c ∈ hexDigits v 32, isSpace c = false := all_hexDigits (by decide)
  have hother : ∀ c ∈ hexDigits v 32, c ≠ '+' ∧ c ≠ 'x' ∧ c ≠ 'X' := all_hexDigits (by decide)
  have hplus : ¬ (hexDigits v 32).head? = some '+' :=
    fun h => (hother _ (List.mem_of_mem_head? h)).1 rfl
  have hsecond : ∀ {x : Char}, (hexDigits v 32).take 2 = ['0', x] → x ∈ hexDigits v 32 :=
    fun h => List.mem_of_mem_take (h ▸ List.mem_cons_of_mem _ List.mem_cons_self)
  have hx : ¬ ((hexDigits v 32).take 2 = ['0', 'x'] ∨ (hexDigits v 32).take 2 = ['0', 'X']) := by
    rintro (h | h)
    · exact (hother _ (hsecond h)).2.1 rfl
    · exact (hother _ (hsecond h)).2.2 rfl
  have hdigits := intDigits_hexDigits hv 0 false []
  rw [List.append_nil] at hdigits
  simp only [int16, strip_of_not_mem hspace, hplus, if_false, hx, false_and, hdigits]
  simp [intDigits]

theorem filter_str (u : UUID) : u.str.toList.filter (· ≠ '-') = hexDigits u.toNat 32 := by
  have hdash : ∀ c ∈ hexDigits u.toNat 32, decide (c ≠ '-') = true := all_hexDigits (by decide)
  have hpart : ∀ {l : List Char}, (∀ c ∈ l, c ∈ hexDigits u.toNat 32) → l.filter (· ≠ '-') = l :=
    fun h => List.filter_eq_self.mpr fun c hc => hdash c (h c hc)
  rw [UUID.toList_str]
  simp only [List.filter_append, List.filter_cons]
  rw [hpart fun c hc => List.mem_of_mem_take hc,
    hpart fun c hc => List.mem_of_mem_drop (List.mem_of_mem_take hc),
    hpart fun c hc => List.mem_of_mem_drop (List.mem_of_mem_take hc),
    hpart fun c hc => List.mem_of_mem_drop (List.mem_of_mem_take hc),
    hpart fun c hc => List.mem_of_mem_drop hc]
  simpa using UUID.groups_eq (hexDigits u.toNat 32)

/-- What holds of a dash and of the digits holds of an identifier's characters. -/
theorem forall_str {p : Char → Prop} (hdash : p '-') (h : ∀ d : Fin 16, p (Nat.digitChar d.val))
    {u : UUID} : ∀ c ∈ u.str.toList, p c := by
  intro c hc
  by_cases he : c = '-'
  · exact he ▸ hdash
  · have hm : c ∈ u.str.toList.filter (· ≠ '-') := List.mem_filter.mpr ⟨hc, decide_eq_true he⟩
    rw [filter_str] at hm
    exact all_hexDigits h c hm

/-- `UUID(str(u))` is `u`. -/
theorem parseUuid_str (u : UUID) : parseUuid u.str.toList = some u := by
  have hu : 'u' ∉ u.str.toList := by
    intro hm
    exact forall_str (p := fun c => c ≠ 'u') (by decide) (by decide) _ hm rfl
  have hbrace : ∀ c ∈ u.str.toList, isBrace c = false := forall_str (by decide) (by decide)
  have hremove : ∀ word : List Char, removeAll ('u' :: word) 0 u.str.toList = u.str.toList :=
    fun _ => removeAll_of_not_mem hu
  have hlt : u.toNat < 16 ^ 32 := u.isLt
  have hurn : "urn:".toList = 'u' :: "rn:".toList := rfl
  have huuid : "uuid:".toList = 'u' :: "uid:".toList := rfl
  simp only [parseUuid, hurn, huuid, hremove, strip_of_not_mem hbrace, filter_str, length_hexDigits,
    int16_hexDigits hlt, if_true]
  rw [if_pos u.isLt, BitVec.ofNat_toNat, BitVec.setWidth_eq]

end ForkRoom
