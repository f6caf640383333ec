import AuditGovernance.Domain.Timestamp

/-! # Times with a zone

    `encoding/json` writes a time with the offset of its zone and reads it
    back at that offset; canonical JSON writes it in UTC. Both denote one
    instant. Offsets are whole minutes, as RFC 3339 has them.
-/

namespace AuditGovernance.Timestamp

/-! ## Section 1: Texts -/

/-- A UTC offset in minutes that RFC 3339 can write. -/
def Zone := { minutes : Int // -1440 < minutes ∧ minutes < 1440 }
deriving DecidableEq

def utc : Zone := ⟨0, by decide⟩

/-- Nanoseconds of an offset. -/
def Zone.nanos (zone : Zone) : Int := zone.1 * 60 * 1000000000

@[simp] theorem nanos_utc : utc.nanos = 0 := rfl

/-- `Z`, or sign, hours and minutes. -/
def formatZone (zone : Zone) : List Char :=
  if zone.1 = 0 then ['Z']
  else
    (if zone.1 < 0 then '-' else '+') :: padDigits 2 (zone.1.natAbs / 60) ++
      ':' :: padDigits 2 (zone.1.natAbs % 60)

/-- `t.In(zone).Format(time.RFC3339Nano)`. -/
def formatIn (zone : Zone) (t : Time) : String :=
  String.ofList ((format (t + zone.nanos)).toList.dropLast ++ formatZone zone)

/-- Sign, hours and minutes of an offset. -/
def readZone : List Char → Option Zone
  | sign :: h₁ :: h₂ :: ':' :: m₁ :: m₂ :: [] =>
    if h : ((sign = '+' ∨ sign = '-') ∧ [h₁, h₂, m₁, m₂].all Char.isDigit) ∧
        Decimal.value [h₁, h₂] < 24 ∧ Decimal.value [m₁, m₂] < 60 then
      some ⟨(if sign = '-' then -1 else 1) * (Decimal.value [h₁, h₂] * 60 + Decimal.value [m₁, m₂] : Nat),
        by split_ifs <;> omega⟩
    else none
  | _ => none

/-- `time.Parse(time.RFC3339, text)`: the instant and its offset. -/
def parseIn (text : String) : Option (Time × Zone) :=
  let chars := text.toList
  if chars.getLast? = some 'Z' then (parse text).map (fun t => (t, utc))
  else
    match readZone (chars.drop (chars.length - 6)) with
    | none => none
    | some zone =>
      (parse (String.ofList (chars.take (chars.length - 6) ++ ['Z']))).map
        (fun t => (t - zone.nanos, zone))

/-! ## Section 2: Reading back -/

theorem format_ends (t : Time) : ∃ front, (format t).toList = front ++ ['Z'] :=
  ⟨_, by rw [format, String.toList_ofList]⟩

theorem padDigits_two (n : Nat) : padDigits 2 n = [digit (n / 10), digit n] := by
  simp [padDigits]

theorem formatZone_of_ne {zone : Zone} (h : zone.1 ≠ 0) :
    formatZone zone =
      [if zone.1 < 0 then '-' else '+', digit (zone.1.natAbs / 60 / 10), digit (zone.1.natAbs / 60),
        ':', digit (zone.1.natAbs % 60 / 10), digit (zone.1.natAbs % 60)] := by
  unfold formatZone
  rw [if_neg h, padDigits_two, padDigits_two]
  rfl

theorem readZone_formatZone {zone : Zone} (hne : zone.1 ≠ 0) :
    readZone (formatZone zone) = some zone := by
  obtain ⟨minutes, hlow, hhigh⟩ := zone
  have hhours : Decimal.value (padDigits 2 (minutes.natAbs / 60)) = minutes.natAbs / 60 := by
    rw [value_padDigits, Nat.mod_eq_of_lt (by omega)]
  have hminutes : Decimal.value (padDigits 2 (minutes.natAbs % 60)) = minutes.natAbs % 60 := by
    rw [value_padDigits]
    exact Nat.mod_eq_of_lt (by omega)
  rw [padDigits_two] at hhours hminutes
  rw [formatZone_of_ne hne]
  simp only [readZone, hhours, hminutes]
  rw [dif_pos]
  · congr 1
    apply Subtype.ext
    by_cases hneg : minutes < 0
    · simp only [hneg, if_true]
      omega
    · simp only [hneg, if_false]
      rw [if_neg (by decide)]
      omega
  · refine ⟨⟨?_, ?_⟩, by omega, by omega⟩
    · by_cases hneg : minutes < 0
      · exact .inr (by simp [hneg])
      · exact .inl (by simp [hneg])
    · simp [digit_isDigit]

/-- **A zoned time is read back**, with the local year in four digits. -/
theorem parseIn_formatIn {zone : Zone} {t : Time} (hyear : HasYear (t + zone.nanos)) :
    parseIn (formatIn zone t) = some (t, zone) := by
  obtain ⟨front, hfront⟩ := format_ends (t + zone.nanos)
  have hback : t + zone.nanos - zone.nanos = t := Int.add_sub_cancel t _
  rw [parseIn, formatIn, hfront, List.dropLast_concat, String.toList_ofList]
  by_cases hutc : zone.1 = 0
  · have hzone : zone = utc := Subtype.ext hutc
    have htext : String.ofList (front ++ formatZone zone) = format (t + zone.nanos) := by
      rw [formatZone, if_pos hutc, ← hfront, String.ofList_toList]
    have hlast : (front ++ formatZone zone).getLast? = some 'Z' := by
      rw [formatZone, if_pos hutc, List.getLast?_concat]
    rw [if_pos hlast, htext, parse_format hyear, Option.map_some]
    rw [hzone, nanos_utc, Int.sub_zero] at hback
    rw [hzone, nanos_utc, hback]
  · -- the text ends in the last digit of the minutes
    have hlength : (formatZone zone).length = 6 := by
      rw [formatZone_of_ne hutc]
      rfl
    have hlast : (front ++ formatZone zone).getLast? ≠ some 'Z' := by
      rw [formatZone_of_ne hutc]
      intro hz
      have hdigit := digit_isDigit (zone.1.natAbs % 60)
      simp only [List.getLast?_append, List.getLast?_cons_cons,
        List.getLast?_singleton, Option.some_or, Option.some.injEq] at hz
      rw [hz] at hdigit
      exact absurd hdigit (by decide)
    have hcut : (front ++ formatZone zone).length - 6 = front.length := by
      rw [List.length_append, hlength]
      omega
    rw [if_neg hlast, hcut, List.drop_left, List.take_left, readZone_formatZone hutc]
    simp only [← hfront, String.ofList_toList, parse_format hyear, Option.map_some, hback]

theorem formatIn_utc (t : Time) : formatIn utc t = format t := by
  obtain ⟨front, hfront⟩ := format_ends t
  have hzero : t + utc.nanos = t := Int.add_zero t
  have hz : formatZone utc = ['Z'] := rfl
  rw [formatIn, hzero, hfront, List.dropLast_concat, hz, ← hfront, String.ofList_toList]

theorem parseIn_format {t : Time} (h : HasYear t) : parseIn (format t) = some (t, utc) := by
  obtain ⟨front, hfront⟩ := format_ends t
  rw [parseIn, hfront, if_pos List.getLast?_concat, parse_format h]
  rfl

end AuditGovernance.Timestamp
