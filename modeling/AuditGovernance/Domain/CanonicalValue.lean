import AuditGovernance.Domain.EventJson

/-! # What canonical JSON says

    The values that JSON texts stand for: numbers are rationals, objects are
    maps. `CanonicalJSON` (`internal/domain/canonical.go`) writes one text for
    each value, so two documents have the same canonical text exactly when they
    stand for the same value.
-/

namespace AuditGovernance

open FiniteMap Json

/-! ## Section 1: Values -/

/-- The value of a JSON text. A literal that is no number has no rational. -/
inductive Value where
  | null
  | bool (value : Bool)
  | num (value : Option ℚ)
  | str (text : String)
  | arr (items : List Value)
  /-- An object is what it holds under each key. -/
  | obj (entries : String → Option Value)

namespace Json

mutual

def denote : Json → Value
  | .null => .null
  | .bool b => .bool b
  | .num literal => .num (literalValue literal)
  | .str text => .str text
  | .arr items => .arr (denoteItems items)
  | .obj fields => .obj (denoteFields fields)

def denoteItems : List Json → List Value
  | [] => []
  | x :: rest => denote x :: denoteItems rest

/-- The last of several equal keys counts. -/
def denoteFields : List (String × Json) → String → Option Value
  | [], _ => none
  | (k, x) :: rest, key =>
    match denoteFields rest key with
    | some value => some value
    | none => if key = k then some (denote x) else none

end

theorem denoteItems_eq_map (items : List Json) : denoteItems items = items.map denote := by
  induction items with
  | nil => rfl
  | cons x rest ih => rw [denoteItems, ih, List.map_cons]

theorem denoteFields_eq_lookup (fields : List (String × Json))
    (h : ∀ p ∈ fields, p.2.normalize.denote = p.2.denote) (key : String) :
    denoteFields fields key = ((normalizeFields fields).lookup key).map denote := by
  induction fields with
  | nil => rfl
  | cons p rest ih =>
    obtain ⟨k, x⟩ := p
    have hx : x.normalize.denote = x.denote := h (k, x) (by simp)
    have hrest := ih (fun q hq => h q (by simp [hq]))
    rw [denoteFields, normalizeFields, lookup_insertField (fieldsSorted_normalizeFields rest),
      hrest]
    cases hlookup : (normalizeFields rest).lookup key with
    | some value =>
      by_cases hkey : key = k
      · simp [hkey]
      · simp [hkey]
    | none =>
      by_cases hkey : key = k
      · simp [hkey, hx]
      · simp [hkey]

theorem denote_normalize (v : Json) : v.normalize.denote = v.denote := by
  induction v using induct with
  | null | bool | num | str => rfl
  | arr items ih =>
    rw [Json.normalize, normalizeItems_eq_map, denote, denote, denoteItems_eq_map,
      denoteItems_eq_map, List.map_map]
    congr 1
    exact List.map_congr_left ih
  | obj fields ih =>
    rw [Json.normalize, denote, denote]
    congr 1
    funext key
    have hnormal : ∀ p ∈ normalizeFields fields, p.2.normalize.denote = p.2.denote := by
      intro p hp
      obtain ⟨q, -, rfl⟩ := mem_normalizeFields hp
      rw [normalize_normalize]
    have hself : normalizeFields (normalizeFields fields) = normalizeFields fields :=
      Json.obj.inj (normalize_normalize (.obj fields))
    rw [denoteFields_eq_lookup _ hnormal, hself, denoteFields_eq_lookup _ ih]

/-- Objects are equal as maps. -/
theorem denote_obj (fields : List (String × Json)) (key : String) :
    denoteFields fields key = ((normalizeFields fields).lookup key).map denote :=
  denoteFields_eq_lookup fields (fun p _ => denote_normalize p.2) key

theorem denoteFields_mapFields (f : String → String) (fields : List (String × Json))
    (h : ∀ p ∈ fields, (mapNumbers f p.2).denote = p.2.denote) (key : String) :
    denoteFields (mapFields f fields) key = denoteFields fields key := by
  induction fields with
  | nil => rfl
  | cons p rest ih =>
    obtain ⟨k, x⟩ := p
    have hx : (mapNumbers f x).denote = x.denote := h (k, x) (by simp)
    rw [mapFields, denoteFields, denoteFields, ih (fun q hq => h q (by simp [hq])), hx]

/-- Other spellings of the same numbers. -/
theorem denote_mapNumbers {f : String → String} (v : Json)
    (h : ∀ literal ∈ numbers v, literalValue (f literal) = literalValue literal) :
    (mapNumbers f v).denote = v.denote := by
  induction v using induct with
  | null | bool | str => rfl
  | num literal => rw [mapNumbers, denote, denote, h literal (by simp [numbers])]
  | arr items ih =>
    rw [mapNumbers, mapItems_eq_map, denote, denote, denoteItems_eq_map, denoteItems_eq_map,
      List.map_map]
    congr 1
    apply List.map_congr_left
    intro x hx
    exact ih x hx (fun l hl => h l (mem_numbersOfItems.2 ⟨x, hx, hl⟩))
  | obj fields ih =>
    rw [mapNumbers, denote, denote]
    congr 1
    funext key
    apply denoteFields_mapFields
    intro p hp
    exact ih p hp (fun l hl => h l (mem_numbersOfFields.2 ⟨p, hp, hl⟩))

theorem denote_rewriteNumbers {v w : Json} (h : rewriteNumbers writeNumber v = .ok w) :
    w.denote = v.denote := by
  rw [rewriteNumbers_eq_map h]
  apply denote_mapNumbers
  intro literal hl
  exact literalValue_writeNumber (rewriteNumbers_ok v w h literal hl)

/-! ## Section 2: One representative for each value -/

/-- Objects in key order and numbers in canonical spelling, at every depth. -/
structure Canonical (v : Json) : Prop where
  normal : v.normalize = v
  spelling : ∀ literal ∈ numbers v, writeNumber literal = .ok literal

theorem canonical_rewriteNumbers {v w : Json}
    (h : rewriteNumbers writeNumber v.normalize = .ok w) : Canonical w := by
  refine ⟨?_, ?_⟩
  · rw [rewriteNumbers_eq_map h, mapNumbers_normalize, normalize_normalize]
  · intro text ht
    obtain ⟨literal, -, hl⟩ := numbers_rewriteNumbers h ht
    exact writeNumber_idem hl

theorem Canonical.item {items : List Json} (h : Canonical (.arr items)) {x : Json}
    (hx : x ∈ items) : Canonical x := by
  refine ⟨?_, fun l hl => h.spelling l (mem_numbersOfItems.2 ⟨x, hx, hl⟩)⟩
  have hnormal := h.normal
  rw [Json.normalize, normalizeItems_eq_map, Json.arr.injEq] at hnormal
  exact List.map_inj_left.1 (hnormal.trans (List.map_id' items).symm) x hx

theorem Canonical.sorted {fields : List (String × Json)} (h : Canonical (.obj fields)) :
    FieldsSorted fields := by
  have hnormal := h.normal
  rw [Json.normalize, Json.obj.injEq] at hnormal
  rw [← hnormal]
  exact fieldsSorted_normalizeFields fields

theorem Canonical.field {fields : List (String × Json)} (h : Canonical (.obj fields))
    {p : String × Json} (hp : p ∈ fields) : Canonical p.2 := by
  refine ⟨?_, fun l hl => h.spelling l (mem_numbersOfFields.2 ⟨p, hp, hl⟩)⟩
  have hnormal := h.normal
  rw [Json.normalize, normalizeFields_of_keysSorted h.sorted, Json.obj.injEq] at hnormal
  have hmap := hnormal.trans (List.map_id' fields).symm
  exact congrArg Prod.snd (List.map_inj_left.1 hmap p hp)

theorem lookup_of_sorted {fields : List (String × Json)} (h : FieldsSorted fields)
    {p : String × Json} (hp : p ∈ fields) : fields.lookup p.1 = some p.2 := by
  induction fields with
  | nil => cases hp
  | cons q rest ih =>
    obtain ⟨l, w⟩ := q
    obtain ⟨hhead, htail⟩ := List.pairwise_cons.1 h
    rw [lookup_cons_ite]
    rcases List.mem_cons.1 hp with rfl | hp
    · rw [if_pos rfl]
    · rw [if_neg (ne_of_gt (hhead p hp))]
      exact ih htail hp

theorem Canonical.denoteFields {fields : List (String × Json)} (h : Canonical (.obj fields))
    (key : String) : denoteFields fields key = (fields.lookup key).map denote := by
  have hnormal := h.normal
  rw [Json.normalize, Json.obj.injEq] at hnormal
  rw [denote_obj, hnormal]

theorem items_unique {items items' : List Json}
    (h : ∀ x ∈ items, ∀ y ∈ items', x.denote = y.denote → x = y)
    (heq : items.map denote = items'.map denote) : items = items' := by
  induction items generalizing items' with
  | nil => exact (List.map_eq_nil_iff.1 heq.symm).symm
  | cons x rest ih =>
    cases items' with
    | nil => cases heq
    | cons y rest' =>
      rw [List.map_cons, List.map_cons, List.cons.injEq] at heq
      rw [h x (by simp) y (by simp) heq.1,
        ih (fun a ha b hb => h a (by simp [ha]) b (by simp [hb])) heq.2]

theorem fields_unique {fields fields' : List (String × Json)} (hs : FieldsSorted fields)
    (hs' : FieldsSorted fields') (h : ∀ p ∈ fields, p ∈ fields') (h' : ∀ p ∈ fields', p ∈ fields) :
    fields = fields' := by
  have hirrefl : Std.Irrefl (fun p q : String × Json => p.1 < q.1) := ⟨fun p => lt_irrefl p.1⟩
  have hantisymm : Std.Antisymm (fun p q : String × Json => p.1 < q.1) :=
    ⟨fun p q hpq hqp => absurd (lt_trans hpq hqp) (lt_irrefl p.1)⟩
  exact List.Pairwise.eq_of_mem_iff hs hs' (fun p => ⟨h p, h' p⟩)

theorem Canonical.mem_of_denote {fields fields' : List (String × Json)}
    (h : Canonical (.obj fields)) (h' : Canonical (.obj fields'))
    (hunique : ∀ p ∈ fields, ∀ q ∈ fields', p.2.denote = q.2.denote → p.2 = q.2)
    (heq : ∀ key, Json.denoteFields fields key = Json.denoteFields fields' key) :
    ∀ p ∈ fields, p ∈ fields' := by
  intro p hp
  have hkey := heq p.1
  rw [h.denoteFields, h'.denoteFields, lookup_of_sorted h.sorted hp] at hkey
  obtain ⟨value, hlookup, hdenote⟩ := Option.map_eq_some_iff.1 hkey.symm
  have hmem := lookup_mem hlookup
  have hsame : p.2 = value := hunique p hp (p.1, value) hmem hdenote.symm
  rw [← hsame] at hmem
  exact hmem

/-- **A value has one canonical representative.** -/
theorem Canonical.unique {v : Json} (hv : Canonical v) :
    ∀ {w : Json}, Canonical w → v.denote = w.denote → v = w := by
  induction v using induct with
  | null | bool | str =>
    intro w _ heq
    cases w <;> simp_all [denote]
  | num literal =>
    intro w hw heq
    cases w with
    | num literal' =>
      rw [denote, denote, Value.num.injEq] at heq
      have hl := hv.spelling literal (by simp [numbers])
      have hl' := hw.spelling literal' (by simp [numbers])
      rw [writeNumber_unique hl hl' heq]
    | _ => cases heq
  | arr items ih =>
    intro w hw heq
    cases w with
    | arr items' =>
      rw [denote, denote, Value.arr.injEq, denoteItems_eq_map, denoteItems_eq_map] at heq
      rw [items_unique (fun x hx y hy => ih x hx (hv.item hx) (hw.item hy)) heq]
    | _ => cases heq
  | obj fields ih =>
    intro w hw heq
    cases w with
    | obj fields' =>
      rw [denote, denote, Value.obj.injEq] at heq
      have hunique : ∀ p ∈ fields, ∀ q ∈ fields', p.2.denote = q.2.denote → p.2 = q.2 :=
        fun p hp q hq => ih p hp (hv.field hp) (hw.field hq)
      have hsub := hv.mem_of_denote hw hunique (congrFun heq)
      have hsub' := hw.mem_of_denote hv
        (fun q hq p hp hd => (hunique p hp q hq hd.symm).symm) (congrFun heq.symm)
      rw [fields_unique hv.sorted hw.sorted hsub hsub']
    | _ => cases heq

/-- Canonical texts are equal exactly for equal values. -/
theorem canonicalJSON_eq_iff {v w : Json} {x y : String} (hv : v.canonicalJSON = .ok x)
    (hw : w.canonicalJSON = .ok y) : x = y ↔ v.denote = w.denote := by
  unfold canonicalJSON at hv hw
  cases hv' : rewriteNumbers writeNumber v.normalize with
  | error err => rw [hv'] at hv; cases hv
  | ok v' =>
    cases hw' : rewriteNumbers writeNumber w.normalize with
    | error err => rw [hw'] at hw; cases hw
    | ok w' =>
      rw [hv'] at hv
      rw [hw'] at hw
      have hx : v'.toText = x := Except.ok.inj hv
      have hy : w'.toText = y := Except.ok.inj hw
      have hdv : v'.denote = v.denote := (denote_rewriteNumbers hv').trans (denote_normalize v)
      have hdw : w'.denote = w.denote := (denote_rewriteNumbers hw').trans (denote_normalize w)
      rw [← hx, ← hy, ← hdv, ← hdw]
      constructor
      · intro htext
        rw [toText_inj (valid_of_writeNumber hv') (valid_of_writeNumber hw') htext]
      · intro hdenote
        rw [(canonical_rewriteNumbers hv').unique (canonical_rewriteNumbers hw') hdenote]

/-! ## Section 3: Events -/

theorem denoteFields_append (fields fields' : List (String × Json)) (key : String) :
    denoteFields (fields ++ fields') key =
      (denoteFields fields' key).or (denoteFields fields key) := by
  induction fields with
  | nil => simp [denoteFields]
  | cons p rest ih =>
    obtain ⟨k, x⟩ := p
    rw [List.cons_append, denoteFields, denoteFields, ih]
    cases denoteFields fields' key with
    | some value => rfl
    | none => cases denoteFields rest key <;> rfl

theorem denoteFields_entries (m : Dict Json) (key : String) :
    denoteFields m.toList key = (m[key]?).map denote := by
  have hsorted := fieldsSorted_entries m
  rw [denote_obj, lookup_normalizeFields (hsorted.imp ne_of_lt |> List.pairwise_map.2), Option.map_map]
  have hlookup : m.toList.lookup key = m[key]? := by
    cases hm : m[key]? with
    | none =>
      apply lookup_eq_none
      rintro ⟨k, v⟩ hp rfl
      rw [mem_entries, hm] at hp
      cases hp
    | some v => exact lookup_of_sorted hsorted (mem_entries.2 hm : (key, v) ∈ m.toList)
  rw [hlookup]
  congr 1
  funext v
  exact denote_normalize v

theorem denoteFields_optMap {name : String} {fields fields' : List (String × Json)}
    (h : ∀ key, denoteFields fields key = denoteFields fields' key)
    (hnil : fields = [] ↔ fields' = []) (key : String) :
    denoteFields (optMap name fields) key = denoteFields (optMap name fields') key := by
  have hobj : denote (.obj fields) = denote (.obj fields') := by
    rw [denote, denote, funext h]
  unfold optMap
  by_cases hf : fields = []
  · rw [if_pos hf, if_pos (hnil.1 hf)]
  · rw [if_neg hf, if_neg (fun hf' => hf (hnil.2 hf'))]
    simp only [denoteFields, hobj]

theorem denote_eq_null {v : Json} : v.denote = .null ↔ v = .null := by
  cases v <;> simp [denote]

theorem denoteFields_optValue {name : String} {v w : Json} (h : v.denote = w.denote)
    (key : String) : denoteFields (optValue name v) key = denoteFields (optValue name w) key := by
  have hnull : v = .null ↔ w = .null := by rw [← denote_eq_null, ← denote_eq_null, h]
  unfold optValue
  by_cases hv : v = .null
  · rw [if_pos hv, if_pos (hnull.1 hv)]
  · rw [if_neg hv, if_neg (fun hw => hv (hnull.2 hw))]
    simp only [denoteFields, h]

theorem denoteFields_optMap_entries (name : String) {m n : Dict Json}
    (h : ∀ k : String, (m[k]?).map denote = (n[k]?).map denote) (key : String) :
    denoteFields (optMap name m.toList) key = denoteFields (optMap name n.toList) key := by
  have hempty : ∀ {m n : Dict Json}, (∀ k : String, (m[k]?).map denote = (n[k]?).map denote) →
      m.toList = [] → n.toList = [] := by
    intro m n hmn hm
    rw [List.eq_nil_iff_forall_not_mem] at hm ⊢
    rintro ⟨k, v⟩ hv
    have hk := hmn k
    rw [mem_entries.1 hv] at hk
    obtain ⟨w, hw, -⟩ := Option.map_eq_some_iff.1 hk
    exact hm (k, w) (mem_entries.2 hw)
  apply denoteFields_optMap
  · intro k
    rw [denoteFields_entries, denoteFields_entries, h k]
  · exact ⟨hempty h, hempty (fun k => (h k).symm)⟩

end Json

/-- The values before and after a change. -/
def FieldChange.denote (c : FieldChange) : Value × Value := (c.before.denote, c.after.denote)

/-- Events that say the same: their maps hold the same values, everything else
    is equal. Absent fields are empty ones. -/
structure Event.Equivalent (a b : Event) : Prop where
  fields : ({ a with payload := ∅, changedFields := ∅ } : Event) =
    { b with payload := ∅, changedFields := ∅ }
  payload : ∀ k : String, (a.payload[k]?).map Json.denote = (b.payload[k]?).map Json.denote
  changed : ∀ k : String,
    (a.changedFields[k]?).map FieldChange.denote = (b.changedFields[k]?).map FieldChange.denote

theorem FieldChange.toJson_denote {c c' : FieldChange} (h : c.denote = c'.denote) :
    c.toJson.denote = c'.toJson.denote := by
  obtain ⟨hbefore, hafter⟩ := Prod.mk.inj h
  rw [FieldChange.toJson, FieldChange.toJson, Json.denote, Json.denote]
  congr 1
  funext key
  rw [denoteFields_append, denoteFields_append, denoteFields_optValue hbefore,
    denoteFields_optValue hafter]

theorem Event.toJson_denote_congr (a : Event) {payload : Dict Json} {changed : Dict FieldChange}
    (hp : ∀ k : String, (a.payload[k]?).map Json.denote = (payload[k]?).map Json.denote)
    (hc : ∀ k : String, (a.changedFields[k]?).map (fun c => c.toJson.denote) =
      (changed[k]?).map (fun c => c.toJson.denote)) :
    a.toJson.denote =
      ({ a with payload := payload, changedFields := changed } : Event).toJson.denote := by
  have hpayload := denoteFields_optMap_entries "payload" hp
  have hchanged := denoteFields_optMap_entries "changed_fields"
    (m := a.changedFields.map (fun _ c => c.toJson)) (n := changed.map (fun _ c => c.toJson)) (by
      intro k
      rw [Std.ExtTreeMap.getElem?_map, Std.ExtTreeMap.getElem?_map, Option.map_map, Option.map_map]
      exact hc k)
  simp only [Std.ExtTreeMap.toList_map] at hchanged
  rw [Event.toJson, Event.toJson, Json.denote, Json.denote]
  refine congrArg Value.obj (funext fun key => ?_)
  unfold Event.jsonFields
  simp only [denoteFields_append, hpayload, hchanged]

theorem Event.Equivalent.toJson_denote {a b : Event} (h : a.Equivalent b) :
    a.toJson.denote = b.toJson.denote := by
  -- only the two maps can differ
  have hb : b = { a with payload := b.payload, changedFields := b.changedFields } := by
    have hfields := congrArg (fun e : Event =>
      ({ e with payload := b.payload, changedFields := b.changedFields } : Event)) h.fields
    exact hfields.symm
  rw [hb]
  apply Event.toJson_denote_congr a h.payload
  intro k
  have hk := h.changed k
  cases ha : a.changedFields[k]? with
  | none =>
    rw [ha, Option.map_none] at hk
    rw [Option.map_eq_none_iff.1 hk.symm]
  | some c =>
    rw [ha, Option.map_some] at hk
    obtain ⟨c', hc', hd⟩ := Option.map_eq_some_iff.1 hk.symm
    rw [hc', Option.map_some, Option.map_some, FieldChange.toJson_denote hd]

theorem literalValue_rewritten (literal : String) :
    literalValue (rewritten writeNumber literal) = literalValue literal := by
  unfold rewritten
  split
  · next text htext => exact literalValue_writeNumber htext
  · rfl

theorem denote_canonicalForm (v : Json) :
    (v.mapNumbers (rewritten writeNumber)).normalize.denote = v.denote := by
  rw [denote_normalize]
  exact denote_mapNumbers v (fun literal _ => literalValue_rewritten literal)

theorem Event.equivalent_mapNumbers {f : String → String}
    (hf : ∀ literal, literalValue (f literal) = literalValue literal) (e : Event) :
    (e.mapNumbers f).normalized.Equivalent e := by
  have hvalue : ∀ v : Json, (v.mapNumbers f).normalize.denote = v.denote := by
    intro v
    rw [denote_normalize]
    exact denote_mapNumbers v (fun literal _ => hf literal)
  refine ⟨rfl, ?_, ?_⟩
  · intro k
    simp only [Event.normalized, Event.mapNumbers, Std.ExtTreeMap.getElem?_map, Option.map_map]
    congr 1
    funext v
    exact hvalue v
  · intro k
    simp only [Event.normalized, Event.mapNumbers, Std.ExtTreeMap.getElem?_map, Option.map_map]
    congr 1
    funext c
    exact Prod.ext (hvalue c.before) (hvalue c.after)

theorem Event.equivalent_canonical (e : Event) : e.canonical.Equivalent e :=
  Event.equivalent_mapNumbers literalValue_rewritten e

theorem Event.Equivalent.symm {a b : Event} (h : a.Equivalent b) : b.Equivalent a :=
  ⟨h.fields.symm, fun k => (h.payload k).symm, fun k => (h.changed k).symm⟩

theorem Event.Equivalent.trans {a b c : Event} (h : a.Equivalent b) (h' : b.Equivalent c) :
    a.Equivalent c :=
  ⟨h.fields.trans h'.fields, fun k => (h.payload k).trans (h'.payload k),
    fun k => (h.changed k).trans (h'.changed k)⟩

theorem Event.canonical_of_text {a b : Event} {x : String} (ha : a.canonicalJSON = .ok x)
    (hb : b.canonicalJSON = .ok x) : a.canonical = b.canonical := by
  obtain ⟨v, hv, hvx, hva⟩ := Event.canonicalJSON_ok ha
  obtain ⟨w, hw, hwx, hwb⟩ := Event.canonicalJSON_ok hb
  have hvw : v = w := toText_inj hv hw (hvx.symm.trans hwx)
  have hinstant : ∀ t : Time,
      some (Function.invFun Timestamp.format (Timestamp.format t)) = some t :=
    fun t => congrArg some (Function.leftInverse_invFun Timestamp.format_injective t)
  have hread : ∀ e : Event, readStruct
      (Event.readFields (fun text => some (Function.invFun Timestamp.format text)))
        e.toJson.normalize = some e.normalized :=
    fun e => Event.read_toJson (hinstant _) (hinstant _)
  have hreada := hread (a.mapNumbers (rewritten writeNumber))
  have hreadb := hread (b.mapNumbers (rewritten writeNumber))
  rw [← hva, hvw, hwb, hreadb] at hreada
  exact (Option.some.inj hreada).symm

theorem Event.canonicalJSON_eq_iff {a b : Event} {x y : String} (ha : a.canonicalJSON = .ok x)
    (hb : b.canonicalJSON = .ok y) : x = y ↔ a.Equivalent b := by
  constructor
  · rintro rfl
    have hsame := Event.canonical_of_text ha hb
    have hca := a.equivalent_canonical.symm
    rw [hsame] at hca
    exact hca.trans b.equivalent_canonical
  · intro h
    exact (Json.canonicalJSON_eq_iff ha hb).2 h.toJson_denote

/-! ## Section 4: Documents -/

/-- What `CanonicalJSON` is called with: decoded JSON with events inside. -/
inductive Document where
  | null
  | bool (value : Bool)
  | num (literal : String)
  | str (text : String)
  | arr (items : List Document)
  | obj (fields : List (String × Document))
  | event (e : Event)

namespace Document

mutual

/-- A struct is written as the object of its fields (`writeStruct`). -/
def toJson : Document → Json
  | .null => .null
  | .bool b => .bool b
  | .num literal => .num literal
  | .str text => .str text
  | .arr items => .arr (itemsToJson items)
  | .obj fields => .obj (fieldsToJson fields)
  | .event e => e.toJson

def itemsToJson : List Document → List Json
  | [] => []
  | x :: rest => toJson x :: itemsToJson rest

def fieldsToJson : List (String × Document) → List (String × Json)
  | [] => []
  | (k, x) :: rest => (k, toJson x) :: fieldsToJson rest

end

/-- `CanonicalJSON`. -/
def canonicalJSON (a : Document) : Except Err String := a.toJson.canonicalJSON

mutual

/-- The value of a document: an event is the object of its fields. -/
def denote : Document → Value
  | .null => .null
  | .bool b => .bool b
  | .num literal => .num (literalValue literal)
  | .str text => .str text
  | .arr items => .arr (denoteItems items)
  | .obj fields => .obj (denoteFields fields)
  | .event e => e.toJson.denote

def denoteItems : List Document → List Value
  | [] => []
  | x :: rest => denote x :: denoteItems rest

def denoteFields : List (String × Document) → String → Option Value
  | [], _ => none
  | (k, x) :: rest, key =>
    match denoteFields rest key with
    | some value => some value
    | none => if key = k then some (denote x) else none

end

mutual

theorem toJson_denote (a : Document) : a.toJson.denote = a.denote := by
  cases a with
  | arr items => rw [toJson, Json.denote, denote, itemsToJson_denote items]
  | obj fields => rw [toJson, Json.denote, denote, fieldsToJson_denote fields]
  | _ => rfl

theorem itemsToJson_denote (items : List Document) :
    Json.denoteItems (itemsToJson items) = denoteItems items := by
  cases items with
  | nil => rfl
  | cons x rest =>
    rw [itemsToJson, Json.denoteItems, denoteItems, toJson_denote x, itemsToJson_denote rest]

theorem fieldsToJson_denote (fields : List (String × Document)) :
    Json.denoteFields (fieldsToJson fields) = denoteFields fields := by
  cases fields with
  | nil => rfl
  | cons p rest =>
    obtain ⟨k, x⟩ := p
    funext key
    rw [fieldsToJson, Json.denoteFields, denoteFields, toJson_denote x, fieldsToJson_denote rest]

end

/-- Canonical texts are equal exactly for equal values. -/
theorem canonicalJSON_eq_iff {a b : Document} {x y : String} (ha : a.canonicalJSON = .ok x)
    (hb : b.canonicalJSON = .ok y) : x = y ↔ a.denote = b.denote := by
  rw [← toJson_denote, ← toJson_denote]
  exact Json.canonicalJSON_eq_iff ha hb

end Document

end AuditGovernance
