import AuditGovernance.Framework.Decimal
import AuditGovernance.Domain.Types

/-! # Timestamps

    `time.RFC3339Nano` in UTC. A time is a count of nanoseconds since the first
    of January of year one, so the calendar below starts there and runs
    backwards for negative times.
-/

namespace AuditGovernance

namespace Timestamp

/-! ## Section 1: Calendar -/

def isLeap (year : Int) : Bool := year % 4 = 0 ∧ (year % 100 ≠ 0 ∨ year % 400 = 0)

/-- Days before a year, from the first of January of year one. -/
def daysBeforeYear (year : Int) : Int :=
  365 * (year - 1) + (year - 1) / 4 - (year - 1) / 100 + (year - 1) / 400

/-- The year a day falls in: whole 400-, 100-, 4- and 1-year cycles, where the
    last of a run of cycles is a day longer. -/
def yearOf (days : Int) : Int :=
  let d400 := days % 146097
  let n100 := min 3 (d400 / 36524)
  let d100 := d400 - 36524 * n100
  let d4 := d100 % 1461
  let n1 := min 3 (d4 / 365)
  400 * (days / 146097) + 100 * n100 + 4 * (d100 / 1461) + n1 + 1

/-- Days of the year before each month. -/
def daysBeforeMonth (leap : Bool) (month : Nat) : Nat :=
  let day := if leap then 1 else 0
  [0, 31, 59 + day, 90 + day, 120 + day, 151 + day, 181 + day, 212 + day, 243 + day, 273 + day,
    304 + day, 334 + day].getD (month - 1) 366

/-- The month a day of the year falls in. -/
def monthOf (leap : Bool) (yearDay : Nat) : Nat :=
  ((List.range 12).filter (fun m => daysBeforeMonth leap (m + 1) ≤ yearDay)).length

structure Civil where
  year : Int
  month : Nat
  day : Nat
  hour : Nat
  minute : Nat
  second : Nat
  nanos : Nat
deriving DecidableEq, Repr

/-- Calendar date and clock time of an instant. -/
def civil (t : Time) : Civil :=
  let seconds := t / 1000000000
  let days := seconds / 86400
  let year := yearOf days
  let yearDay := (days - daysBeforeYear year).toNat
  let month := monthOf (isLeap year) yearDay
  { year := year, month := month, day := yearDay - daysBeforeMonth (isLeap year) month + 1
    hour := (seconds % 86400 / 3600).toNat, minute := (seconds % 3600 / 60).toNat
    second := (seconds % 60).toNat, nanos := (t % 1000000000).toNat }

/-! ## Section 2: Text -/

def digit (n : Nat) : Char := Char.ofNat (48 + n % 10)

/-- The last `width` decimal digits of a number. -/
def padDigits : Nat → Nat → List Char
  | 0, _ => []
  | width + 1, n => digit (n / 10 ^ width) :: padDigits width n

/-- At least four digits behind the sign. -/
def formatYear (year : Int) : List Char :=
  (if year < 0 then ['-'] else []) ++
    (if year.natAbs ≤ 9999 then padDigits 4 year.natAbs else Nat.toDigits 10 year.natAbs)

/-- Fractional seconds without trailing zeros, nothing for whole seconds. -/
def formatNanos (nanos : Nat) : List Char :=
  if nanos = 0 then [] else '.' :: (padDigits 9 nanos).rdropWhile Decimal.isZero

/-- `t.UTC().Format(time.RFC3339Nano)`. -/
def format (t : Time) : String :=
  let c := civil t
  String.ofList (formatYear c.year ++ '-' :: padDigits 2 c.month ++ '-' :: padDigits 2 c.day ++
    'T' :: padDigits 2 c.hour ++ ':' :: padDigits 2 c.minute ++ ':' :: padDigits 2 c.second ++
    formatNanos c.nanos ++ ['Z'])

example : format 0 = "0001-01-01T00:00:00Z" := by decide +kernel

/-! ## Section 3: Reading -/

def daysIn (leap : Bool) (month : Nat) : Nat :=
  if month = 2 then (if leap then 29 else 28)
  else if month = 4 ∨ month = 6 ∨ month = 9 ∨ month = 11 then 30
  else 31

/-- The date and the clock time exist. -/
def Civil.exists_ (c : Civil) : Bool :=
  1 ≤ c.month ∧ c.month ≤ 12 ∧ 1 ≤ c.day ∧ c.day ≤ daysIn (isLeap c.year) c.month ∧
    c.hour < 24 ∧ c.minute < 60 ∧ c.second < 60

/-- The instant of a date and clock time. -/
def Civil.instant (c : Civil) : Int :=
  ((daysBeforeYear c.year + (daysBeforeMonth (isLeap c.year) c.month + (c.day - 1) : Nat)) * 86400 +
    c.hour * 3600 + c.minute * 60 + c.second) * 1000000000 + c.nanos

/-- A number of exactly `width` digits. -/
def readDigits (width : Nat) (text : List Char) : Option (Nat × List Char) :=
  let digits := text.take width
  if digits.length = width ∧ digits.all Char.isDigit then
    some (Decimal.value digits, text.drop width)
  else none

/-- A single separator. -/
def readChar (c : Char) : List Char → Option (List Char)
  | [] => none
  | d :: rest => if d = c then some rest else none

/-- Fractional seconds; digits behind the ninth are dropped. -/
def readNanos : List Char → Option (Nat × List Char)
  | [] => some (0, [])
  | c :: rest =>
    if c = '.' then
      let digits := rest.takeWhile Char.isDigit
      if digits = [] then none
      else some (Decimal.value (digits.take 9) * 10 ^ (9 - digits.length),
        rest.dropWhile Char.isDigit)
    else some (0, c :: rest)

/-- What `format` writes behind the year. -/
def parseInYear (year : Int) (text : List Char) : Option Civil := do
  let text ← readChar '-' text
  let (month, text) ← readDigits 2 text
  let text ← readChar '-' text
  let (day, text) ← readDigits 2 text
  let text ← readChar 'T' text
  let (hour, text) ← readDigits 2 text
  let text ← readChar ':' text
  let (minute, text) ← readDigits 2 text
  let text ← readChar ':' text
  let (second, text) ← readDigits 2 text
  let (nanos, text) ← readNanos text
  if text = ['Z'] then some ⟨year, month, day, hour, minute, second, nanos⟩ else none

/-- A time in UTC as `format` writes it, with a year of four digits. -/
def parseCivil (text : List Char) : Option Civil := do
  let (year, text) ← readDigits 4 text
  parseInYear year text

/-- `time.Parse(time.RFC3339, text)` of a text in UTC. -/
def parse (text : String) : Option Time :=
  match parseCivil text.toList with
  | none => none
  | some c => if c.exists_ then some c.instant else none

/-! ### Times are read back -/

/-- The year has four digits and no sign: `0 ≤ year ≤ 9999`. -/
def HasYear (t : Int) : Prop :=
  daysBeforeYear 0 * 86400 * 1000000000 ≤ t ∧ t < daysBeforeYear 10000 * 86400 * 1000000000

instance (t : Int) : Decidable (HasYear t) := inferInstanceAs (Decidable (_ ∧ _))

theorem yearOf_cycles (days : Int) : ∃ a b c e q : Int, yearOf days = 400 * a + 100 * b + 4 * c + e + 1 ∧
    days = 146097 * a + 36524 * b + 1461 * c + q ∧ 365 * e ≤ q ∧ 0 ≤ b ∧ b ≤ 3 ∧ 0 ≤ c ∧ c ≤ 24 ∧
    0 ≤ e ∧ e ≤ 3 ∧
    (e < 3 → q < 365 * e + 365) ∧ q ≤ 1460 ∧ (c = 24 → q = 1460 → b = 3) := by
  refine ⟨days / 146097, min 3 (days % 146097 / 36524),
    (days % 146097 - 36524 * min 3 (days % 146097 / 36524)) / 1461,
    min 3 ((days % 146097 - 36524 * min 3 (days % 146097 / 36524)) % 1461 / 365),
    (days % 146097 - 36524 * min 3 (days % 146097 / 36524)) % 1461, rfl, ?_⟩
  omega

theorem daysBeforeYear_yearOf (days : Int) : daysBeforeYear (yearOf days) ≤ days ∧
      days - daysBeforeYear (yearOf days) < 365 + (if isLeap (yearOf days) then 1 else 0) := by
  obtain ⟨a, b, c, e, q, hyear, hdays, hq, hb0, hb, hc0, hc, he0, he, hlt, hq', hlast⟩ :=
    yearOf_cycles days
  have hbefore : daysBeforeYear (yearOf days) = 146097 * a + 36524 * b + 1461 * c + 365 * e := by
    unfold daysBeforeYear
    rw [hyear]
    omega
  rw [hbefore]
  refine ⟨by omega, ?_⟩
  by_cases hleap : isLeap (yearOf days) = true
  · rw [if_pos hleap]
    omega
  · rw [if_neg hleap]
    rw [hyear] at hleap
    simp only [isLeap, decide_eq_true_eq] at hleap
    omega

theorem monthOf_spec (leap : Bool) (yearDay : Nat) (h : yearDay < 365 + (if leap then 1 else 0)) :
    1 ≤ monthOf leap yearDay ∧ monthOf leap yearDay ≤ 12 ∧
      daysBeforeMonth leap (monthOf leap yearDay) ≤ yearDay ∧
      yearDay - daysBeforeMonth leap (monthOf leap yearDay) + 1 ≤
        daysIn leap (monthOf leap yearDay) := by
  have hall : ∀ leap : Bool, ∀ yearDay : Fin 366, yearDay.val < 365 + (if leap then 1 else 0) →
      1 ≤ monthOf leap yearDay ∧ monthOf leap yearDay ≤ 12 ∧
        daysBeforeMonth leap (monthOf leap yearDay) ≤ yearDay ∧
        yearDay - daysBeforeMonth leap (monthOf leap yearDay) + 1 ≤
          daysIn leap (monthOf leap yearDay) := by decide +kernel
  have hlt : yearDay < 366 := by
    cases leap
    · simp only [Bool.false_eq_true, if_false] at h
      omega
    · simp only [if_true] at h
      omega
  exact hall leap ⟨yearDay, hlt⟩ h

theorem civil_month (t : Int) :
    let year := yearOf (t / 1000000000 / 86400)
    let yearDay := (t / 1000000000 / 86400 - daysBeforeYear year).toNat
    1 ≤ monthOf (isLeap year) yearDay ∧ monthOf (isLeap year) yearDay ≤ 12 ∧
      daysBeforeMonth (isLeap year) (monthOf (isLeap year) yearDay) ≤ yearDay ∧
      yearDay - daysBeforeMonth (isLeap year) (monthOf (isLeap year) yearDay) + 1 ≤
        daysIn (isLeap year) (monthOf (isLeap year) yearDay) := by
  have hyear := daysBeforeYear_yearOf (t / 1000000000 / 86400)
  apply monthOf_spec
  split_ifs at hyear ⊢ <;> omega

theorem civil_exists (t : Int) : (civil t).exists_ = true := by
  have hmonth := civil_month t
  refine decide_eq_true ?_
  exact ⟨hmonth.1, hmonth.2.1, Nat.le_add_left 1 _, hmonth.2.2.2,
    by simp only [civil]; omega, by simp only [civil]; omega, by simp only [civil]; omega⟩

theorem civil_instant (t : Int) : (civil t).instant = t := by
  have hyear := daysBeforeYear_yearOf (t / 1000000000 / 86400)
  have hmonth := civil_month t
  have hdate : daysBeforeYear (civil t).year +
      (daysBeforeMonth (isLeap (civil t).year) (civil t).month + ((civil t).day - 1) : Nat) =
      t / 1000000000 / 86400 := by
    simp only [civil]
    omega
  unfold Civil.instant
  rw [hdate]
  simp only [civil]
  omega

theorem daysBeforeYear_mono {y z : Int} (h : y ≤ z) : daysBeforeYear y ≤ daysBeforeYear z := by
  unfold daysBeforeYear
  omega

theorem daysBeforeYear_succ (year : Int) :
    daysBeforeYear (year + 1) = daysBeforeYear year + 365 + (if isLeap year then 1 else 0) := by
  unfold daysBeforeYear
  by_cases hleap : isLeap year = true
  · rw [if_pos hleap]
    simp only [isLeap, decide_eq_true_eq] at hleap
    omega
  · rw [if_neg hleap]
    simp only [isLeap, decide_eq_true_eq] at hleap
    omega

theorem hasYear_iff {t : Int} : HasYear t ↔ 0 ≤ (civil t).year ∧ (civil t).year ≤ 9999 := by
  have hyear := daysBeforeYear_yearOf (t / 1000000000 / 86400)
  have hnext := daysBeforeYear_succ (yearOf (t / 1000000000 / 86400))
  show HasYear t ↔ 0 ≤ yearOf (t / 1000000000 / 86400) ∧ yearOf (t / 1000000000 / 86400) ≤ 9999
  generalize yearOf (t / 1000000000 / 86400) = year at *
  have hdays : HasYear t ↔ daysBeforeYear 0 ≤ t / 1000000000 / 86400 ∧
      t / 1000000000 / 86400 < daysBeforeYear 10000 := by
    unfold HasYear
    omega
  rw [hdays]
  constructor
  · rintro ⟨hfrom, hto⟩
    constructor
    · by_contra hneg
      have hmono := daysBeforeYear_mono (show year + 1 ≤ 0 by omega)
      omega
    · by_contra hlarge
      have hmono := daysBeforeYear_mono (show 10000 ≤ year by omega)
      omega
  · rintro ⟨hfrom, hto⟩
    have hlow := daysBeforeYear_mono hfrom
    have hhigh := daysBeforeYear_mono (show year + 1 ≤ 10000 by omega)
    omega

theorem digit_isDigit (n : Nat) : (digit n).isDigit = true := by
  have hall : ∀ k : Fin 10, (Char.ofNat (48 + k)).isDigit = true := by decide
  exact hall ⟨n % 10, Nat.mod_lt _ (by decide)⟩

theorem digit_toNat (n : Nat) : (digit n).toNat - 48 = n % 10 := by
  have hall : ∀ k : Fin 10, (Char.ofNat (48 + k)).toNat - 48 = k := by decide
  exact hall ⟨n % 10, Nat.mod_lt _ (by decide)⟩

theorem length_padDigits (width n : Nat) : (padDigits width n).length = width := by
  induction width with
  | zero => rfl
  | succ width ih => rw [padDigits, List.length_cons, ih]

theorem padDigits_isDigit (width n : Nat) : ∀ c ∈ padDigits width n, c.isDigit = true := by
  induction width with
  | zero => simp [padDigits]
  | succ width ih =>
    intro c hc
    rcases List.mem_cons.1 hc with rfl | hc
    · exact digit_isDigit _
    · exact ih c hc

theorem value_padDigits (width n : Nat) : Decimal.value (padDigits width n) = n % 10 ^ width := by
  induction width with
  | zero => simp [padDigits, Nat.mod_one]
  | succ width ih =>
    have hone : Decimal.value [digit (n / 10 ^ width)] = n / 10 ^ width % 10 := by
      have hcons := Decimal.value_concat [] (digit (n / 10 ^ width))
      rw [List.nil_append] at hcons
      rw [hcons, digit_toNat]
      simp
    rw [padDigits, ← List.singleton_append, Decimal.value_append, hone, ih, length_padDigits,
      pow_succ, Nat.mod_mul, Nat.mul_comm (n / 10 ^ width % 10), Nat.add_comm]

theorem readDigits_padDigits {width n : Nat} (h : n < 10 ^ width) (rest : List Char) :
    readDigits width (padDigits width n ++ rest) = some (n, rest) := by
  have htake : (padDigits width n ++ rest).take width = padDigits width n :=
    List.take_left' (length_padDigits width n)
  have hdrop : (padDigits width n ++ rest).drop width = rest :=
    List.drop_left' (length_padDigits width n)
  have hall : (padDigits width n).all Char.isDigit = true :=
    List.all_eq_true.2 (padDigits_isDigit width n)
  simp only [readDigits, htake, hdrop, length_padDigits, hall, and_self, if_true, value_padDigits,
    Nat.mod_eq_of_lt h]

theorem readNanos_formatNanos {nanos : Nat} (h : nanos < 1000000000) :
    readNanos (formatNanos nanos ++ ['Z']) = some (nanos, ['Z']) := by
  unfold formatNanos
  by_cases hzero : nanos = 0
  · rw [if_pos hzero, hzero]
    rfl
  rw [if_neg hzero]
  have hsplit := Decimal.rdropWhile_zeros (padDigits 9 nanos)
  set kept := (padDigits 9 nanos).rdropWhile Decimal.isZero with hkept
  have hdigits : ∀ c ∈ kept, c.isDigit = true := fun c hc =>
    padDigits_isDigit 9 nanos c ((List.rdropWhile_prefix _ _).subset hc)
  have hlen : kept.length + Decimal.trailing (padDigits 9 nanos) = 9 := by
    have := congrArg List.length hsplit
    rw [List.length_append, List.length_replicate, length_padDigits] at this
    omega
  have hvalue : Decimal.value kept * 10 ^ (9 - kept.length) = nanos := by
    have hv := congrArg Decimal.value hsplit
    rw [value_padDigits, Decimal.value_append_zeros,
      Nat.mod_eq_of_lt (show nanos < 10 ^ 9 from h)] at hv
    have hexp : 9 - kept.length = Decimal.trailing (padDigits 9 nanos) := by omega
    rw [hexp]
    exact hv.symm
  have hne : kept ≠ [] := by
    intro hnil
    rw [hnil, Decimal.value_nil, Nat.zero_mul] at hvalue
    exact hzero hvalue.symm
  have htake : (kept ++ ['Z']).takeWhile Char.isDigit = kept := by
    rw [List.takeWhile_append_of_pos hdigits]
    simp
  have hdrop : (kept ++ ['Z']).dropWhile Char.isDigit = ['Z'] := by
    rw [List.dropWhile_append_of_pos hdigits]
    simp
  have htake9 : kept.take 9 = kept := List.take_of_length_le (by omega)
  rw [List.cons_append, readNanos, if_pos rfl]
  simp only [htake, hdrop, hne, if_false, htake9, hvalue]

/-- The text behind the year. -/
def formatInYear (c : Civil) : List Char :=
  '-' :: padDigits 2 c.month ++ '-' :: padDigits 2 c.day ++
    'T' :: padDigits 2 c.hour ++ ':' :: padDigits 2 c.minute ++ ':' :: padDigits 2 c.second ++
    formatNanos c.nanos ++ ['Z']

theorem format_toList (t : Time) :
    (format t).toList = formatYear (civil t).year ++ formatInYear (civil t) := by
  rw [format, String.toList_ofList, formatInYear]
  simp only [List.append_assoc, List.cons_append]

theorem parseInYear_format (t : Int) :
    parseInYear (civil t).year (formatInYear (civil t)) = some (civil t) := by
  have hexists := civil_exists t
  have hfields : (civil t).month ≤ 12 ∧ (civil t).day ≤ 31 ∧ (civil t).hour < 24 ∧
      (civil t).minute < 60 ∧ (civil t).second < 60 := by
    simp only [Civil.exists_, decide_eq_true_eq] at hexists
    have hdays : daysIn (isLeap (civil t).year) (civil t).month ≤ 31 := by
      unfold daysIn
      split_ifs <;> omega
    omega
  have hnanos : (civil t).nanos < 1000000000 := by
    simp only [civil]
    omega
  generalize civil t = c at *
  unfold formatInYear
  simp only [List.append_assoc, List.cons_append]
  unfold parseInYear
  simp only [Option.bind_eq_bind, Option.bind_some, readChar, if_true,
    readDigits_padDigits (show c.month < 10 ^ 2 by omega),
    readDigits_padDigits (show c.day < 10 ^ 2 by omega),
    readDigits_padDigits (show c.hour < 10 ^ 2 by omega),
    readDigits_padDigits (show c.minute < 10 ^ 2 by omega),
    readDigits_padDigits (show c.second < 10 ^ 2 by omega),
    readNanos_formatNanos hnanos]

/-- **Times are read back**, with a year of four digits. -/
theorem parse_format {t : Int} (h : HasYear t) : parse (format t) = some t := by
  obtain ⟨hnonneg, hyear⟩ := hasYear_iff.1 h
  have hformat : formatYear (civil t).year = padDigits 4 (civil t).year.natAbs := by
    rw [formatYear, if_neg (by omega), if_pos (by omega)]
    rfl
  have hparse : parseCivil (format t).toList = some (civil t) := by
    rw [format_toList, hformat, parseCivil,
      readDigits_padDigits (show (civil t).year.natAbs < 10 ^ 4 by omega)]
    have hcast : ((civil t).year.natAbs : Int) = (civil t).year := by omega
    simp only [Option.bind_eq_bind, Option.bind_some, hcast, parseInYear_format]
  rw [parse, hparse]
  simp only [civil_exists, if_true, civil_instant]

theorem formatYear_digits (year : Int) : ∃ digits : List Char,
    formatYear year = (if year < 0 then ['-'] else []) ++ digits ∧
      (∀ c ∈ digits, c.isDigit = true) ∧ digits ≠ [] ∧ Decimal.value digits = year.natAbs := by
  unfold formatYear
  by_cases hsmall : year.natAbs ≤ 9999
  · rw [if_pos hsmall]
    refine ⟨_, rfl, padDigits_isDigit _ _, ?_, ?_⟩
    · intro hnil
      have hlen := length_padDigits 4 year.natAbs
      rw [hnil] at hlen
      cases hlen
    · rw [value_padDigits, Nat.mod_eq_of_lt (by omega)]
  · rw [if_neg hsmall]
    refine ⟨_, rfl, ?_, Nat.toDigits_ne_nil, Nat.ofDigitChars_toDigits (by decide) (by decide)⟩
    exact fun c hc => Nat.isDigit_of_mem_toDigits (by decide) (by decide) hc

theorem digit_ne_dash {c : Char} (h : c.isDigit = true) : c ≠ '-' := by
  rintro rfl
  exact absurd h (by decide)

theorem formatYear_inj {year year' : Int} {rest rest' : List Char}
    (h : formatYear year ++ '-' :: rest = formatYear year' ++ '-' :: rest') :
    year = year' ∧ rest = rest' := by
  obtain ⟨digits, hformat, hdigits, hne, hvalue⟩ := formatYear_digits year
  obtain ⟨digits', hformat', hdigits', hne', hvalue'⟩ := formatYear_digits year'
  -- the digits end at the separator
  have hsplit : ∀ {ds ds' r r' : List Char}, (∀ c ∈ ds, c.isDigit = true) →
      (∀ c ∈ ds', c.isDigit = true) → ds ++ '-' :: r = ds' ++ '-' :: r' → ds = ds' ∧ r = r' := by
    intro ds ds' r r' hds hds' heq
    have htake := congrArg (List.takeWhile Char.isDigit) heq
    rw [List.takeWhile_append_of_pos hds, List.takeWhile_append_of_pos hds'] at htake
    have hnone : ∀ l : List Char, ('-' :: l).takeWhile Char.isDigit = [] := fun l => by
      simp
    rw [hnone, hnone, List.append_nil, List.append_nil] at htake
    subst htake
    exact ⟨rfl, (List.cons.inj (List.append_cancel_left heq)).2⟩
  have hhead : ∀ {ds : List Char} (l : List Char), (∀ c ∈ ds, c.isDigit = true) → ds ≠ [] →
      ∀ l', ds ++ l ≠ '-' :: l' := by
    intro ds l hds hnil l' heq
    cases ds with
    | nil => exact hnil rfl
    | cons c tail => exact digit_ne_dash (hds c (by simp)) (List.cons.inj heq).1
  rw [hformat, hformat', List.append_assoc, List.append_assoc] at h
  by_cases hneg : year < 0 <;> by_cases hneg' : year' < 0
  · rw [if_pos hneg, if_pos hneg'] at h
    obtain ⟨heq, hrest⟩ := hsplit hdigits hdigits' (List.cons.inj h).2
    rw [← heq] at hvalue'
    exact ⟨by omega, hrest⟩
  · rw [if_pos hneg, if_neg hneg'] at h
    exact absurd h.symm (hhead _ hdigits' hne' _)
  · rw [if_neg hneg, if_pos hneg'] at h
    exact absurd h (hhead _ hdigits hne _)
  · rw [if_neg hneg, if_neg hneg'] at h
    obtain ⟨heq, hrest⟩ := hsplit hdigits hdigits' h
    rw [← heq] at hvalue'
    exact ⟨by omega, hrest⟩

/-- **Instants are told apart by their text.** -/
theorem format_injective : Function.Injective format := by
  intro t t' heq
  have hlist := congrArg String.toList heq
  rw [format_toList, format_toList] at hlist
  obtain ⟨hyear, hrest⟩ := formatYear_inj hlist
  have hparse := parseInYear_format t
  have hinYear : formatInYear (civil t) = formatInYear (civil t') := congrArg (List.cons '-') hrest
  rw [hyear, hinYear, parseInYear_format t'] at hparse
  rw [← civil_instant t, ← civil_instant t', Option.some.inj hparse]

end Timestamp

end AuditGovernance
