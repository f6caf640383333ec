import AuditGovernance.Domain.CanonicalValue

/-! # Numbers of events

    The number literals an event holds, field by field. Encoding an event
    fails on nothing but its times and its numbers, so what can be encoded is
    read off here.
-/

namespace AuditGovernance

open FiniteMap Json

/-! ## Section 1: Objects -/

namespace Json

theorem lookup_of_mem {fields : List (String × Json)} (h : (fields.map Prod.fst).Nodup)
    {p : String × Json} (hp : p ∈ fields) : fields.lookup p.1 = some p.2 := by
  obtain ⟨before, after, rfl⟩ := List.append_of_mem hp
  rw [List.map_append, List.map_cons] at h
  rw [List.lookup_eq_some_iff]
  refine ⟨before, after, rfl, ?_⟩
  intro q hq
  rw [bne_iff_ne]
  exact fun heq => (List.nodup_append.1 h).2.2 q.1 (List.mem_map.2 ⟨q, hq, rfl⟩) _
    List.mem_cons_self heq.symm

/-- The numbers of an object are those of its fields. -/
theorem mem_numbers_obj {fields : List (String × Json)} (h : (fields.map Prod.fst).Nodup)
    {literal : String} : literal ∈ (Json.obj fields).normalize.numbers ↔
      ∃ p ∈ fields, literal ∈ p.2.normalize.numbers := by
  rw [Json.normalize, numbers, mem_numbersOfFields]
  constructor
  · rintro ⟨p, hp, hl⟩
    obtain ⟨q, hq, rfl⟩ := mem_normalizeFields hp
    exact ⟨q, hq, hl⟩
  · rintro ⟨q, hq, hl⟩
    refine ⟨(q.1, q.2.normalize), lookup_mem ?_, hl⟩
    rw [lookup_normalizeFields h, lookup_of_mem h hq]
    rfl

theorem mem_numbers_entries {α : Type} (m : Dict α) (f : String → α → Json) {literal : String} :
    literal ∈ (Json.obj (m.toList.map (fun p => (p.1, f p.1 p.2)))).normalize.numbers ↔
      ∃ (k : String) (v : α), m[k]? = some v ∧ literal ∈ (f k v).normalize.numbers := by
  have hnodup : ((m.toList.map (fun p => (p.1, f p.1 p.2))).map Prod.fst).Nodup := by
    rw [List.map_map]
    exact List.pairwise_map.2 (entries_distinct m)
  rw [mem_numbers_obj hnodup]
  constructor
  · rintro ⟨p, hp, hl⟩
    obtain ⟨q, hq, rfl⟩ := List.mem_map.1 hp
    exact ⟨q.1, q.2, mem_entries.1 hq, hl⟩
  · rintro ⟨k, v, hkv, hl⟩
    exact ⟨(k, f k v), List.mem_map.2 ⟨(k, v), mem_entries.2 hkv, rfl⟩, hl⟩

theorem numbers_of_valid (v : Json) (h : v.valid = true) :
    ∀ literal ∈ numbers v, validNumber literal = true := by
  induction v using induct with
  | null | bool | str =>
    intro literal hl
    cases hl
  | num literal =>
    intro l hl
    rw [numbers, List.mem_singleton] at hl
    rw [hl]
    exact h
  | arr items ih =>
    intro l hl
    rw [valid, validItems_iff] at h
    obtain ⟨x, hx, hl⟩ := mem_numbersOfItems.1 hl
    exact ih x hx (h x hx) l hl
  | obj fields ih =>
    intro l hl
    rw [valid, validFields_iff] at h
    obtain ⟨p, hp, hl⟩ := mem_numbersOfFields.1 hl
    exact ih p hp (h p hp) l hl

section Parts

variable {name literal : String}

theorem exists_field {v : Json} : (∃ p ∈ field name v, literal ∈ p.2.normalize.numbers) ↔
    literal ∈ v.normalize.numbers := by
  simp [field]

theorem exists_optText {text : String} :
    (∃ p ∈ optText name text, literal ∈ p.2.normalize.numbers) ↔ False := by
  unfold optText
  split_ifs <;> simp [Json.normalize, numbers]

theorem exists_optInt {n : Int} : (∃ p ∈ optInt name n, literal ∈ p.2.normalize.numbers) ↔
    n ≠ 0 ∧ literal = Int.repr n := by
  unfold optInt
  split_ifs with h <;> simp [h, int, Json.normalize, numbers]

theorem exists_optValue {v : Json} : (∃ p ∈ optValue name v, literal ∈ p.2.normalize.numbers) ↔
    literal ∈ v.normalize.numbers := by
  unfold optValue
  split_ifs with h
  · simp [h, Json.normalize, numbers]
  · simp

theorem exists_optList {items : List Json} :
    (∃ p ∈ optList name items, literal ∈ p.2.normalize.numbers) ↔
      ∃ x ∈ items, literal ∈ x.normalize.numbers := by
  unfold optList
  split_ifs with h
  · simp [h]
  · simp [Json.normalize, numbers, mem_numbersOfItems, normalizeItems_eq_map]

theorem exists_optMap {fields : List (String × Json)} :
    (∃ p ∈ optMap name fields, literal ∈ p.2.normalize.numbers) ↔
      literal ∈ (Json.obj fields).normalize.numbers := by
  unfold optMap
  split_ifs with h
  · simp [h, Json.normalize, normalizeFields, numbers, numbersOfFields]
  · simp

end Parts

end Json

/-! ## Section 2: Events -/

theorem Actor.no_numbers (a : Actor) (literal : String) :
    literal ∉ a.toJson.normalize.numbers := by
  have hkeys : KeysAmong (["id"] ++ ["type"] ++ ["name"] ++ ["department"] ++ ["roles"])
      (field "id" (.str a.id) ++ optText "type" a.type ++ optText "name" a.name ++
        optText "department" a.department ++ optList "roles" (a.roles.map .str)) :=
    ((((keysAmong_field _ _).append (keysAmong_optText _ _)).append (keysAmong_optText _ _)).append
      (keysAmong_optText _ _)).append (keysAmong_optList _ _)
  rw [Actor.toJson, mem_numbers_obj (List.Nodup.sublist hkeys (by decide))]
  simp only [List.mem_append, or_and_right, exists_or, exists_field, exists_optText,
    exists_optList]
  simp [Json.normalize, numbers]

theorem Target.no_numbers (t : Target) (literal : String) :
    literal ∉ t.toJson.normalize.numbers := by
  have hkeys : KeysAmong (["type"] ++ ["id"] ++ ["name"])
      (field "type" (.str t.type) ++ field "id" (.str t.id) ++ optText "name" t.name) :=
    ((keysAmong_field _ _).append (keysAmong_field _ _)).append (keysAmong_optText _ _)
  rw [Target.toJson, mem_numbers_obj (List.Nodup.sublist hkeys (by decide))]
  simp only [List.mem_append, or_and_right, exists_or, exists_field, exists_optText]
  simp [Json.normalize, numbers]

theorem FieldChange.mem_numbers {c : FieldChange} {literal : String} :
    literal ∈ c.toJson.normalize.numbers ↔
      literal ∈ c.before.normalize.numbers ∨ literal ∈ c.after.normalize.numbers := by
  have hkeys : KeysAmong (["before"] ++ ["after"])
      (optValue "before" c.before ++ optValue "after" c.after) :=
    (keysAmong_optValue _ _).append (keysAmong_optValue _ _)
  rw [FieldChange.toJson, mem_numbers_obj (List.Nodup.sublist hkeys (by decide))]
  simp only [List.mem_append, or_and_right, exists_or, exists_optValue]

/-- The numbers of an event. -/
theorem Event.mem_numbers {e : Event} {literal : String} :
    literal ∈ e.toJson.normalize.numbers ↔
      literal = Int.repr e.schemaVersion ∨
      (e.aggregateVersion ≠ 0 ∧ literal = Int.repr e.aggregateVersion) ∨
      (∃ (k : String) (c : FieldChange), e.changedFields[k]? = some c ∧
        (literal ∈ c.before.normalize.numbers ∨ literal ∈ c.after.normalize.numbers)) ∨
      (∃ (k : String) (v : Json), e.payload[k]? = some v ∧ literal ∈ v.normalize.numbers) ∨
      (e.sequence ≠ 0 ∧ literal = Int.repr e.sequence) := by
  have hpayload := @mem_numbers_entries _ e.payload (fun _ v => v) literal
  have hchanged := @mem_numbers_entries _ e.changedFields (fun _ c => c.toJson) literal
  have htargets : ¬ ∃ x ∈ e.targets.map Target.toJson, literal ∈ x.normalize.numbers := by
    rintro ⟨x, hx, hl⟩
    obtain ⟨t, -, rfl⟩ := List.mem_map.1 hx
    exact t.no_numbers literal hl
  have hentries : e.payload.toList.map (fun p => (p.1, p.2)) = e.payload.toList := List.map_id' _
  rw [hentries] at hpayload
  rw [Event.toJson, mem_numbers_obj e.nodup_keys]
  unfold Event.jsonFields
  simp only [List.mem_append, or_and_right, exists_or, exists_field, exists_optText, exists_optInt,
    exists_optList, exists_optMap, htargets, hpayload, hchanged, FieldChange.mem_numbers,
    e.actor.no_numbers]
  simp only [time, int, Json.normalize, numbers, List.not_mem_nil, List.mem_singleton, or_false,
    false_or, or_assoc]

/-! ## Section 3: Encoding -/

theorem Json.canonicalJSON_succeeds {v : Json} : (∃ text, v.canonicalJSON = .ok text) ↔
    ∀ literal ∈ v.normalize.numbers, ∃ text, writeNumber literal = .ok text := by
  rw [Json.canonicalJSON]
  constructor
  · rintro ⟨text, h⟩ literal hl
    cases hw : rewriteNumbers writeNumber v.normalize with
    | error err => rw [hw] at h; cases h
    | ok w => exact ⟨_, rewriteNumbers_ok _ w hw literal hl⟩
  · intro h
    have hall : ∀ literal ∈ v.normalize.numbers,
        writeNumber literal = .ok (rewritten writeNumber literal) := by
      intro literal hl
      obtain ⟨text, htext⟩ := h literal hl
      simp [rewritten, htext]
    rw [rewriteNumbers_of_forall _ hall]
    exact ⟨_, rfl⟩

theorem writeNumber_int_succeeds {n : Int} (h : n.natAbs < 10 ^ 20) :
    ∃ text, writeNumber (Int.repr n) = .ok text := by
  have hlength : (Nat.toDigits 10 n.natAbs).length ≤ 20 :=
    (Nat.length_toDigits_le_iff (by decide) (by decide)).2 h
  have hall : NumberParts.all ⟨decide (n < 0), Nat.toDigits 10 n.natAbs, [], []⟩ =
      Nat.toDigits 10 n.natAbs := by
    simp [NumberParts.all]
  have hdigits : (Decimal.significant (Nat.toDigits 10 n.natAbs)).length ≤ 20 := by
    have hdrop := (List.dropWhile_sublist (l := (Nat.toDigits 10 n.natAbs).rdropWhile Decimal.isZero)
      Decimal.isZero).length_le
    have hrdrop := (List.rdropWhile_prefix Decimal.isZero (l := Nat.toDigits 10 n.natAbs)).length_le
    rw [Decimal.significant]
    omega
  have htrailing : Decimal.trailing (Nat.toDigits 10 n.natAbs) ≤ 20 := by
    rw [Decimal.trailing]
    omega
  have hexponent : parseDecimalExponent [] = .ok 0 := rfl
  rw [writeNumber, parse_intRepr]
  simp only [hexponent, NumberParts.digits, NumberParts.scale, hall, List.length_nil]
  rw [if_neg (by unfold maxCanonicalNumberDigits; omega)]
  split
  · exact ⟨_, rfl⟩
  · rw [if_neg]
    · exact ⟨_, rfl⟩
    · rw [exceedsMagnitude, if_pos (by omega), decide_eq_true_eq]
      unfold maxCanonicalNumberDigits
      omega

end AuditGovernance
