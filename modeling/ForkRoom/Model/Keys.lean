/-
# `Model.Keys` — what a rendered identifier determines

`str(uuid)` and `isoformat()` go into the keys of notifications and of the Redis
repositories.  Both are injective, and neither the text of a UUID nor the value
of an enumeration holds a colon, so a key joined with colons determines its parts.

    str(uuid)      8-4-4-4-12 hexadecimal digits, all 128 bits
    isoformat()    the civil date, the time of day, the microseconds if any

The civil date of a day is counted in eras of 400 years that start in March.
-/
import ForkRoom.Lib.Text
import ForkRoom.Model.Records

namespace ForkRoom

/-! ## UUIDs -/

@[simp] theorem length_hexDigits (v n : Nat) : (hexDigits v n).length = n := by
  induction n generalizing v with
  | zero => rfl
  | succ n ih => simp [hexDigits, ih]

theorem digitChar_inj {d d' : Nat} (hd : d < 16) (hd' : d' < 16)
    (h : Nat.digitChar d = Nat.digitChar d') : d = d' := by
  revert d'
  revert d
  decide

theorem hexDigits_inj {n v w : Nat} (hv : v < 16 ^ n) (hw : w < 16 ^ n)
    (h : hexDigits v n = hexDigits w n) : v = w := by
  induction n generalizing v w with
  | zero =>
      rw [pow_zero, Nat.lt_one_iff] at hv hw
      rw [hv, hw]
  | succ n ih =>
      rw [pow_succ] at hv hw
      obtain ⟨hi, lo⟩ := List.append_inj' h rfl
      have hdiv : v / 16 = w / 16 := ih (by omega) (by omega) hi
      have hmod : v % 16 = w % 16 :=
        digitChar_inj (by omega) (by omega) (List.cons.inj lo).1
      omega

theorem colon_not_mem_hexDigits (v n : Nat) : ':' ∉ hexDigits v n := by
  induction n generalizing v with
  | zero => simp [hexDigits]
  | succ n ih =>
      have hc : ':' ≠ Nat.digitChar (v % 16) := (Nat.digitChar_ne ':' (by decide)).symm
      simp [hexDigits, ih, hc]

/-- The groups of a UUID, joined by dashes. -/
theorem UUID.toList_str (u : UUID) :
    u.str.toList = (hexDigits u.toNat 32).take 8 ++
      '-' :: (((hexDigits u.toNat 32).drop 8).take 4 ++
      '-' :: (((hexDigits u.toNat 32).drop 12).take 4 ++
        '-' :: (((hexDigits u.toNat 32).drop 16).take 4 ++
          '-' :: (hexDigits u.toNat 32).drop 20))) := by
  simp [UUID.str]

theorem UUID.length_str (u : UUID) : u.str.length = 36 := by
  rw [← String.length_toList, toList_str]
  simp

theorem UUID.groups_eq (l : List Char) : l.take 8 ++ ((l.drop 8).take 4 ++ ((l.drop 12).take 4 ++
    ((l.drop 16).take 4 ++ l.drop 20))) = l := by
  rw [← List.drop_drop (i := 4) (j := 16) (l := l), List.take_append_drop,
    ← List.drop_drop (i := 4) (j := 12) (l := l), List.take_append_drop,
    ← List.drop_drop (i := 4) (j := 8) (l := l), List.take_append_drop, List.take_append_drop]

theorem UUID.str_inj {u v : UUID} (h : u.str = v.str) : u = v := by
  have hl := congrArg String.toList h
  rw [UUID.toList_str, UUID.toList_str] at hl
  -- the groups have the same lengths on both sides
  obtain ⟨h₁, hl⟩ := List.append_inj hl (by simp)
  obtain ⟨h₂, hl⟩ := List.append_inj (List.cons.inj hl).2 (by simp)
  obtain ⟨h₃, hl⟩ := List.append_inj (List.cons.inj hl).2 (by simp)
  obtain ⟨h₄, hl⟩ := List.append_inj (List.cons.inj hl).2 (by simp)
  have h₅ := (List.cons.inj hl).2
  have hdigits : hexDigits u.toNat 32 = hexDigits v.toNat 32 := by
    rw [← UUID.groups_eq (hexDigits u.toNat 32), h₁, h₂, h₃, h₄, h₅, UUID.groups_eq]
  exact BitVec.eq_of_toNat_eq (hexDigits_inj u.isLt v.isLt hdigits)

theorem UUID.colon_not_mem_str (u : UUID) : ':' ∉ u.str.toList := by
  have hd := colon_not_mem_hexDigits u.toNat 32
  have ht : ∀ {i j : Nat}, ':' ∉ ((hexDigits u.toNat 32).drop i).take j :=
    fun hm => hd (List.mem_of_mem_drop (List.mem_of_mem_take hm))
  have hp : ':' ∉ (hexDigits u.toNat 32).take 8 := fun hm => hd (List.mem_of_mem_take hm)
  have hs : ':' ∉ (hexDigits u.toNat 32).drop 20 := fun hm => hd (List.mem_of_mem_drop hm)
  simp [UUID.toList_str, ht, hp, hs]

/-! ## Datetimes -/

theorem zeroPadded_inj {n v w : Nat} (h : zeroPadded n v = zeroPadded n w) : v = w := by
  have h' := congrArg (fun l => Nat.ofDigitChars 10 l 0) h
  simpa only [zeroPadded, Text.ofDigitChars_padded] using h'

theorem length_zeroPadded {n v : Nat} (hn : 0 < n) (hv : v < 10 ^ n) :
    (zeroPadded n v).length = n := by
  have hle := (Nat.length_toDigits_le_iff (by decide) hn).mpr hv
  simp only [zeroPadded, List.length_append, List.length_replicate]
  omega

theorem length_zeroPadded_le {n k v : Nat} (hn : n ≤ k) (hk : 0 < k) (hv : v < 10 ^ k) :
    (zeroPadded n v).length ≤ k := by
  have hle := (Nat.length_toDigits_le_iff (by decide) hk).mpr hv
  simp only [zeroPadded, List.length_append, List.length_replicate]
  omega

theorem not_mem_zeroPadded {n v : Nat} {c : Char} (hc : c.isDigit = false) :
    c ∉ zeroPadded n v := by
  intro hm
  rw [Text.isDigit_of_mem_padded hm] at hc
  cases hc

/-- The day of a civil date, as `isoformat` counts it. -/
structure CivilDay where
  year : Int
  month : Int
  day : Int

/-- The civil date of the day `z`, counted from 1 March of the year 0. -/
def civilDay (z : Int) : CivilDay :=
  let era := z / 146097
  let doe := z - era * 146097
  let yoe := (doe - doe / 1460 + doe / 36524 - doe / 146096) / 365
  let doy := doe - (365 * yoe + yoe / 4 - yoe / 100)
  let mp := (5 * doy + 2) / 153
  let month := if mp < 10 then mp + 3 else mp - 9
  { year := yoe + era * 400 + if month ≤ 2 then 1 else 0
    month := month
    day := doy - (153 * mp + 2) / 5 + 1 }

/-- The day of the year is what the years before leave of the day of the era. -/
theorem dayOfYear_bounds {doe c d e yoe g : Int} (h₀ : 0 ≤ doe) (h₁ : doe < 146097)
    (hc : c = doe / 1460) (hd : d = doe / 36524) (he : e = doe / 146096)
    (hy : yoe = (doe - c + d - e) / 365) (hg : g = yoe / 100) :
    0 ≤ doe - (365 * yoe + yoe / 4 - g) ∧ doe - (365 * yoe + yoe / 4 - g) ≤ 366 := by
  -- the century of the year is that of the day, but for the last day of the era
  have hcentury : d - e ≤ g ∧ g ≤ d := by
    have hd' : d = 0 ∨ d = 1 ∨ d = 2 ∨ d = 3 ∨ d = 4 := by omega
    rcases hd' with h | h | h | h | h <;> omega
  constructor <;> omega

/-- The numbers of a civil date are the digits' numbers, and they determine the day. -/
theorem civilDay_spec (z : Int) : ∃ era yoe doy mp : Int,
    0 ≤ yoe ∧ yoe < 400 ∧ 0 ≤ doy ∧ 0 ≤ mp ∧ mp ≤ 11 ∧ mp = (5 * doy + 2) / 153 ∧
    z = era * 146097 + (365 * yoe + yoe / 4 - yoe / 100) + doy ∧
    (civilDay z).month = (if mp < 10 then mp + 3 else mp - 9) ∧
    (civilDay z).day = doy - (153 * mp + 2) / 5 + 1 ∧
    (civilDay z).year = yoe + era * 400 + if (civilDay z).month ≤ 2 then 1 else 0 := by
  have hdoe : 0 ≤ z - z / 146097 * 146097 ∧ z - z / 146097 * 146097 < 146097 := by omega
  obtain ⟨hlo, hhi⟩ := dayOfYear_bounds hdoe.1 hdoe.2 rfl rfl rfl rfl rfl
  refine ⟨z / 146097, _, _, _, ?_, ?_, hlo, ?_, ?_, rfl, ?_, rfl, rfl, rfl⟩
  · omega
  · omega
  · omega
  · omega
  · omega

theorem civilDay_inj {z z' : Int} (hy : (civilDay z).year = (civilDay z').year)
    (hm : (civilDay z).month = (civilDay z').month) (hd : (civilDay z).day = (civilDay z').day) :
    z = z' := by
  obtain ⟨era, yoe, doy, mp, h₁, h₂, h₃, h₄, h₅, -, hz, hmonth, hday, hyear⟩ := civilDay_spec z
  obtain ⟨era', yoe', doy', mp', h₁', h₂', h₃', h₄', h₅', -, hz', hmonth', hday', hyear'⟩ :=
    civilDay_spec z'
  have hmp : mp = mp' := by
    rw [hmonth, hmonth'] at hm
    split at hm <;> split at hm <;> omega
  have hyears : yoe + era * 400 = yoe' + era' * 400 := by
    rw [hyear, hyear', hm] at hy
    omega
  have hera : era = era' := by omega
  have hyoe : yoe = yoe' := by omega
  have hdoy : doy = doy' := by
    rw [hday, hday', hmp] at hd
    omega
  rw [hz, hz', hera, hyoe, hdoy]

theorem civilDay_pos (z : Int) : 1 ≤ (civilDay z).month ∧ 1 ≤ (civilDay z).day := by
  obtain ⟨era, yoe, doy, mp, h₁, h₂, h₃, h₄, h₅, hmp, -, hmonth, hday, -⟩ := civilDay_spec z
  constructor
  · rw [hmonth]
    split <;> omega
  · rw [hday]
    omega

/-- 1 January of the year 1 is the day 306. -/
theorem civilDay_year_pos {z : Int} (h : 306 ≤ z) : 1 ≤ (civilDay z).year := by
  obtain ⟨era, yoe, doy, mp, h₁, h₂, h₃, h₄, h₅, hmp, hz, hmonth, hday, hyear⟩ := civilDay_spec z
  rw [hyear, hmonth]
  have hera : 0 ≤ era := by omega
  by_cases hzero : era = 0 ∧ yoe = 0
  · -- the year 0 ends in February
    obtain ⟨rfl, rfl⟩ := hzero
    have hlate : ¬ mp < 10 := by omega
    rw [if_neg hlate, if_pos (by omega)]
    omega
  · have hpos : 1 ≤ yoe + era * 400 := by omega
    by_cases hle : (if mp < 10 then mp + 3 else mp - 9) ≤ 2
    · rw [if_pos hle]
      omega
    · rw [if_neg hle]
      omega

/-- The day of a datetime, as `isoformat` counts it. -/
def Datetime.dayNumber (t : Datetime) : Int := t / 86400000000 + 719468

/-- The second of the day. -/
def Datetime.secondOfDay (t : Datetime) : Nat := (t / 1000000 % 86400).toNat

def Datetime.microsecond (t : Datetime) : Nat := (t % 1000000).toNat

theorem Datetime.dayNumber_min {t : Datetime} (h : datetimeMin ≤ t) : 306 ≤ t.dayNumber := by
  have h' : (-62135596800000000 : Int) ≤ (show Int from t) := h
  show (306 : Int) ≤ (show Int from t) / 86400000000 + 719468
  omega

/-- The fraction of a second, and the offset of UTC. -/
def Datetime.fraction (t : Datetime) : List Char :=
  (if t.microsecond = 0 then [] else '.' :: zeroPadded 6 t.microsecond) ++ "+00:00".toList

theorem Datetime.toList_isoformat (t : Datetime) :
    t.isoformat.toList = zeroPadded 4 (civilDay t.dayNumber).year.toNat ++
      '-' :: (zeroPadded 2 (civilDay t.dayNumber).month.toNat ++
      '-' :: (zeroPadded 2 (civilDay t.dayNumber).day.toNat ++
      'T' :: (zeroPadded 2 (t.secondOfDay / 3600) ++
      ':' :: (zeroPadded 2 (t.secondOfDay / 60 % 60) ++
      ':' :: (zeroPadded 2 (t.secondOfDay % 60) ++ t.fraction))))) := by
  have h : t.isoformat = String.ofList (zeroPadded 4 (civilDay t.dayNumber).year.toNat ++
      '-' :: zeroPadded 2 (civilDay t.dayNumber).month.toNat ++
      '-' :: zeroPadded 2 (civilDay t.dayNumber).day.toNat ++
      'T' :: zeroPadded 2 (t.secondOfDay / 3600) ++
      ':' :: zeroPadded 2 (t.secondOfDay / 60 % 60) ++
      ':' :: zeroPadded 2 (t.secondOfDay % 60) ++
      (if t.microsecond = 0 then [] else '.' :: zeroPadded 6 t.microsecond) ++
      "+00:00".toList) := rfl
  rw [h, String.toList_ofList]
  simp only [fraction, List.append_assoc, List.cons_append]

theorem Datetime.fraction_inj {t t' : Datetime} (h : t.fraction = t'.fraction) :
    t.microsecond = t'.microsecond := by
  have h' := List.append_cancel_right h
  by_cases hz : t.microsecond = 0
  · by_cases hz' : t'.microsecond = 0
    · rw [hz, hz']
    · rw [if_pos hz, if_neg hz'] at h'
      cases h'
  · by_cases hz' : t'.microsecond = 0
    · rw [if_neg hz, if_pos hz'] at h'
      cases h'
    · rw [if_neg hz, if_neg hz'] at h'
      exact zeroPadded_inj (List.cons.inj h').2

/-- The day, the second and the microsecond are the datetime. -/
theorem Datetime.eq_of_parts {t t' : Datetime} (hd : t.dayNumber = t'.dayNumber)
    (hs : t.secondOfDay = t'.secondOfDay) (hm : t.microsecond = t'.microsecond) : t = t' := by
  have hparts : ∀ a b : Int, a / 86400000000 + 719468 = b / 86400000000 + 719468 →
      (a / 1000000 % 86400).toNat = (b / 1000000 % 86400).toNat →
      (a % 1000000).toNat = (b % 1000000).toNat → a = b := by
    intro a b h₁ h₂ h₃
    omega
  exact hparts t t' hd hs hm

/-- `isoformat` tells every two datetimes apart. -/
theorem Datetime.isoformat_inj {t t' : Datetime} (ht : datetimeMin ≤ t)
    (h : t.isoformat = t'.isoformat) : t = t' := by
  have hl := congrArg String.toList h
  rw [toList_isoformat, toList_isoformat] at hl
  have hdigits : ∀ {n v : Nat} {c : Char}, c.isDigit = false → c ∉ zeroPadded n v :=
    fun hc => not_mem_zeroPadded hc
  obtain ⟨hyear, hl⟩ := Text.split_eq (hdigits rfl) (hdigits rfl) hl
  obtain ⟨hmonth, hl⟩ := Text.split_eq (hdigits rfl) (hdigits rfl) hl
  obtain ⟨hday, hl⟩ := Text.split_eq (hdigits rfl) (hdigits rfl) hl
  obtain ⟨hhour, hl⟩ := Text.split_eq (hdigits rfl) (hdigits rfl) hl
  obtain ⟨hminute, hl⟩ := Text.split_eq (hdigits rfl) (hdigits rfl) hl
  have hsixty : ∀ {k : Nat}, (zeroPadded 2 (k % 60)).length = 2 := by
    intro k
    exact length_zeroPadded (by decide) (by omega)
  obtain ⟨hsecond, hfraction⟩ := List.append_inj hl (by rw [hsixty, hsixty])
  have hpos := civilDay_year_pos (dayNumber_min ht)
  have hdate : t.dayNumber = t'.dayNumber := by
    have hy := zeroPadded_inj hyear
    have hm := zeroPadded_inj hmonth
    have hd := zeroPadded_inj hday
    have hp := civilDay_pos t.dayNumber
    have hp' := civilDay_pos t'.dayNumber
    exact civilDay_inj (by omega) (by omega) (by omega)
  have htime : t.secondOfDay = t'.secondOfDay := by
    have h₁ := zeroPadded_inj hhour
    have h₂ := zeroPadded_inj hminute
    have h₃ := zeroPadded_inj hsecond
    omega
  exact eq_of_parts hdate htime (fraction_inj hfraction)

/-- A datetime that exists is rendered in no more characters than this. -/
theorem Datetime.length_isoformat_le {t : Datetime} (hmin : datetimeMin ≤ t)
    (hmax : t ≤ datetimeMax) :
    t.isoformat.length ≤ 60 := by
  have hday : 306 ≤ t.dayNumber ∧ t.dayNumber ≤ 3652365 := by
    refine ⟨dayNumber_min hmin, ?_⟩
    have h' : (show Int from t) ≤ 253402300799999999 := hmax
    show (show Int from t) / 86400000000 + 719468 ≤ 3652365
    omega
  have hsecond : t.secondOfDay < 86400 := by
    unfold secondOfDay
    have := Int.emod_nonneg (show Int from t / 1000000) (show (86400 : Int) ≠ 0 by decide)
    have := Int.emod_lt_of_pos (show Int from t / 1000000) (show (0 : Int) < 86400 by decide)
    omega
  have hmicro : t.microsecond < 1000000 := by
    unfold microsecond
    have := Int.emod_nonneg (show Int from t) (show (1000000 : Int) ≠ 0 by decide)
    have := Int.emod_lt_of_pos (show Int from t) (show (0 : Int) < 1000000 by decide)
    omega
  have hcivil : ∀ z : Int, 306 ≤ z → z ≤ 3652365 → (civilDay z).year < 1000000 ∧
      (civilDay z).month < 1000000 ∧ (civilDay z).day < 1000000 := by
    intro z h₁ h₂
    simp only [civilDay]
    refine ⟨?_, ?_, ?_⟩ <;> omega
  obtain ⟨hy, hm, hd⟩ := hcivil _ hday.1 hday.2
  rw [← String.length_toList, toList_isoformat]
  have h₁ : (zeroPadded 4 (civilDay t.dayNumber).year.toNat).length ≤ 6 :=
    length_zeroPadded_le (by decide) (by decide) (by omega)
  have h₂ : (zeroPadded 2 (civilDay t.dayNumber).month.toNat).length ≤ 6 :=
    length_zeroPadded_le (by decide) (by decide) (by omega)
  have h₃ : (zeroPadded 2 (civilDay t.dayNumber).day.toNat).length ≤ 6 :=
    length_zeroPadded_le (by decide) (by decide) (by omega)
  have h₄ : (zeroPadded 2 (t.secondOfDay / 3600)).length ≤ 6 :=
    length_zeroPadded_le (by decide) (by decide) (by omega)
  have h₅ : (zeroPadded 2 (t.secondOfDay / 60 % 60)).length ≤ 6 :=
    length_zeroPadded_le (by decide) (by decide) (by omega)
  have h₆ : (zeroPadded 2 (t.secondOfDay % 60)).length ≤ 6 :=
    length_zeroPadded_le (by decide) (by decide) (by omega)
  have h₇ : t.fraction.length ≤ 13 := by
    unfold fraction
    split
    · decide
    · have h := length_zeroPadded_le (n := 6) (k := 6) (by decide) (by decide)
        (by simpa using hmicro)
      simp only [List.length_append, List.length_cons, String.length_toList]
      have : "+00:00".length = 6 := by decide
      omega
  simp only [List.length_append, List.length_cons]
  omega

end ForkRoom
