import AuditGovernance.Service.Schemas

/-! # Field protection and its inverse

    `protectSensitiveFields` encrypts the listed fields and stores search
    digests beside the payload; `reconstructEventForDigest` removes the digests
    and decrypts. The second undoes the first unless an encrypted field is
    listed twice and holds a string: then the plaintext is decrypted again.
-/

namespace AuditGovernance

open FiniteMap Json

/-! ## Section 1: One value -/

section Value

variable {c : Cipher}

theorem Cipher.Lawful.decryptJSON_encryptJSON (hc : c.Lawful) {value : Json} {aad : String}
    {nonce : Nat} {encoded : String} (h : c.encryptJSON value aad nonce = .ok encoded) :
    c.decryptJSON encoded aad = .ok value.normalize := by
  unfold Cipher.encryptJSON at h
  cases hm : value.marshal with
  | error err => rw [hm] at h; cases h
  | ok plain =>
    rw [hm] at h
    cases h
    have hdrop : (encryptedPrefix ++ c.sealText nonce plain aad).toList.dropPrefix?
        encryptedPrefix.toList = some (c.sealText nonce plain aad).toList := by
      rw [String.toList_append, List.dropPrefix?_eq_some_iff]
      exact ⟨_, rfl, by simp⟩
    simp only [Cipher.decryptJSON, hdrop, String.ofList_toList, hc.open_sealed, decode_marshal hm]

theorem Cipher.Lawful.decryptJSON_foreign (hc : c.Lawful) {text : String} (aad : String)
    (h : ∀ nonce plain other, text ≠ encryptedPrefix ++ c.sealText nonce plain other) :
    ∃ err, c.decryptJSON text aad = .error err := by
  unfold Cipher.decryptJSON
  split
  · exact ⟨_, rfl⟩
  next sealed hsealed =>
  obtain ⟨pre, heq, hpre⟩ := List.dropPrefix?_eq_some_iff.1 hsealed
  have hforeign : ∀ nonce plain other, String.ofList sealed ≠ c.sealText nonce plain other := by
    intro nonce plain other hs
    apply h nonce plain other
    apply String.toList_injective
    have hpre' : pre = encryptedPrefix.toList := by simpa using hpre
    rw [heq, String.toList_append, ← hs, hpre']
    simp
  rw [hc.open_foreign _ aad hforeign]
  exact ⟨_, rfl⟩

end Value

/-! ## Section 2: The loops -/

section Loops

variable {d : Deployment} {e : Event}

/-- Every value of the payload has a JSON text. -/
def Marshals (payload : Dict Json) : Prop :=
  ∀ (k : String) v, payload[k]? = some v → ∃ text, v.marshal = .ok text

theorem encryptFields_succeeds (hm : Marshals e.payload) (nonce : Nat → Nat) (i : Nat)
    (fields : List String) (payload : Dict Json) :
    ∃ result, d.env.encryptFields e nonce i fields payload = .ok result := by
  induction fields generalizing i payload with
  | nil => exact ⟨payload, rfl⟩
  | cons field rest ih =>
    rw [Env.encryptFields]
    cases hv : e.payload[field]? with
    | none => exact ih (i + 1) payload
    | some value =>
      obtain ⟨text, htext⟩ := hm field value hv
      have henc : d.env.encryptJSON value (Env.fieldBinding e field) (nonce i) =
          .ok (encryptedPrefix ++ d.cipher.sealText (nonce i) text (Env.fieldBinding e field)) := by
        show d.cipher.encryptJSON _ _ _ = _
        rw [Cipher.encryptJSON, htext]
        rfl
      simp only [henc]
      exact ih (i + 1) _

/-- After encryption a listed field holds a text that decrypts to its value;
    everything else is untouched. -/
theorem encryptFields_lookup (hc : d.cipher.Lawful) {nonce : Nat → Nat} {i : Nat}
    {fields : List String} {payload result : Dict Json}
    (h : d.env.encryptFields e nonce i fields payload = .ok result) (k : String) :
    (k ∈ fields → ∀ v, e.payload[k]? = some v → ∃ encoded, result[k]? = some (.str encoded) ∧
      d.cipher.decryptJSON encoded (Env.fieldBinding e k) = .ok v.normalize) ∧
    (k ∉ fields ∨ e.payload[k]? = none → result[k]? = payload[k]?) := by
  induction fields generalizing i payload with
  | nil =>
    cases h
    exact ⟨by simp, fun _ => rfl⟩
  | cons field rest ih =>
    rw [Env.encryptFields] at h
    split at h
    · next hnone =>
      obtain ⟨hin, hout⟩ := ih h
      refine ⟨?_, ?_⟩
      · intro hk v hv
        rcases List.mem_cons.1 hk with rfl | hk
        · rw [hnone] at hv
          cases hv
        · exact hin hk v hv
      · rintro (hk | hk)
        · exact hout (.inl (fun hmem => hk (List.mem_cons_of_mem _ hmem)))
        · exact hout (.inr hk)
    · next value hvalue =>
      split at h
      · cases h
      next encoded henc =>
      obtain ⟨hin, hout⟩ := ih h
      have hdec := hc.decryptJSON_encryptJSON henc
      refine ⟨?_, ?_⟩
      · intro hk v hv
        by_cases hrest : k ∈ rest
        · exact hin hrest v hv
        · -- the last occurrence of the field: what was just written stays
          have hkf : k = field := (List.mem_cons.1 hk).resolve_right hrest
          subst hkf
          rw [hv] at hvalue
          cases hvalue
          exact ⟨encoded, by rw [hout (.inl hrest), lookup_insert_self], hdec⟩
      · intro hk
        have hne : field ≠ k := by
          rintro rfl
          rcases hk with hk | hk
          · exact hk List.mem_cons_self
          · rw [hvalue] at hk
            cases hk
        have hk' : k ∉ rest ∨ e.payload[k]? = none :=
          hk.imp (fun hn hmem => hn (List.mem_cons_of_mem _ hmem)) id
        rw [hout hk', lookup_insert_ne _ _ hne]

theorem digestFields_succeeds (hm : Marshals e.payload) (fields : List String)
    (payload : Dict Json) : ∃ result, d.env.digestFields e fields payload = .ok result := by
  induction fields generalizing payload with
  | nil => exact ⟨payload, rfl⟩
  | cons field rest ih =>
    rw [Env.digestFields]
    cases hv : e.payload[field]? with
    | none => exact ih payload
    | some value =>
      obtain ⟨text, htext⟩ := hm field value hv
      have hdigest : ∃ digest, d.env.searchDigestBound value e.tenantID field = .ok digest := by
        refine ⟨searchDigestMark ++ d.mac (text ++ "\x00" ++ e.tenantID ++ "\x00" ++ field), ?_⟩
        show searchDigestBound _ _ _ _ = _
        rw [searchDigestBound, htext]
        rfl
      obtain ⟨digest, hdigest⟩ := hdigest
      simp only [hdigest]
      exact ih _

theorem digestFields_lookup {fields : List String} {payload result : Dict Json}
    (h : d.env.digestFields e fields payload = .ok result) {k : String}
    (hk : ∀ f ∈ fields, f ++ Env.searchDigestSuffix ≠ k) : result[k]? = payload[k]? := by
  induction fields generalizing payload with
  | nil =>
    cases h
    rfl
  | cons field rest ih =>
    rw [Env.digestFields] at h
    have hrest : ∀ f ∈ rest, f ++ Env.searchDigestSuffix ≠ k := fun f hf => hk f (by simp [hf])
    split at h
    · exact ih h hrest
    split at h
    · cases h
    · rw [ih h hrest, lookup_insert_ne _ _ (hk field (by simp))]

theorem stripDigests_lookup (fields : List String) (payload : Dict Json) (k : String) :
    (fields.foldl (fun (payload : Dict Json) field =>
      payload.erase (field ++ Env.searchDigestSuffix)) payload)[k]? =
      if ∃ f ∈ fields, f ++ Env.searchDigestSuffix = k then none else payload[k]? := by
  induction fields generalizing payload with
  | nil => simp
  | cons field rest ih =>
    rw [List.foldl_cons, ih, lookup_erase]
    by_cases hrest : ∃ f ∈ rest, f ++ Env.searchDigestSuffix = k
    · rw [if_pos hrest, if_pos]
      obtain ⟨f, hf, hfk⟩ := hrest
      exact ⟨f, by simp [hf], hfk⟩
    · rw [if_neg hrest]
      by_cases hfield : field ++ Env.searchDigestSuffix = k
      · rw [if_pos hfield, if_pos ⟨field, by simp, hfield⟩]
      · rw [if_neg hfield, if_neg]
        rintro ⟨f, hf, hfk⟩
        rcases List.mem_cons.1 hf with rfl | hf
        · exact hfield hfk
        · exact hrest ⟨f, hf, hfk⟩

/-- The value is a string. -/
def IsText (v : Json) : Prop := ∃ text, v = .str text

theorem isText_normalize {v : Json} : IsText v.normalize ↔ IsText v := by
  unfold IsText
  cases v <;> simp [Json.normalize]

/-- How far decryption has come with one field: not there, still sealed, or
    open with a value that is not taken for a sealed text. A sealed string must
    not come up again. -/
inductive FieldState (d : Deployment) (e : Event) (fields : List String) (payload : Dict Json)
    (k : String) : Prop where
  | absent (hold : e.payload[k]? = none) (hnow : payload[k]? = none)
  | sealed_ (v : Json) (encoded : String) (hold : e.payload[k]? = some v)
      (hnow : payload[k]? = some (.str encoded))
      (hdec : d.cipher.decryptJSON encoded (Env.fieldBinding e k) = .ok v.normalize)
      (honce : IsText v → fields.count k ≤ 1)
  | opened (v : Json) (hold : e.payload[k]? = some v) (hnow : payload[k]? = some v.normalize)
      (hopen : ¬ IsText v)

theorem decryptFields_opens {fields : List String} {payload : Dict Json}
    (h : ∀ k ∈ fields, FieldState d e fields payload k) :
    ∃ result, d.env.decryptFields e fields payload = .ok result ∧
      ∀ k : String, result[k]? =
        if k ∈ fields then (e.payload[k]?).map Json.normalize else payload[k]? := by
  induction fields generalizing payload with
  | nil => exact ⟨payload, rfl, by simp⟩
  | cons field rest ih =>
    -- the step writes `next`, which has the field open unless it comes up again
    have hstep : ∃ next : Dict Json,
        d.env.decryptFields e (field :: rest) payload = d.env.decryptFields e rest next ∧
        next[field]? = (e.payload[field]?).map Json.normalize ∧
        (∀ k, field ≠ k → next[k]? = payload[k]?) ∧
        (field ∈ rest → ∀ v, e.payload[field]? = some v → ¬ IsText v) := by
      rcases h field List.mem_cons_self with ⟨hold, hnow⟩ | ⟨v, encoded, hold, hnow, hdec, honce⟩ |
        ⟨v, hold, hnow, hopen⟩
      · refine ⟨payload, ?_, by rw [hold, hnow]; rfl, fun _ _ => rfl, ?_⟩
        · rw [Env.decryptFields, hnow]
        · intro _ v hv
          rw [hold] at hv
          cases hv
      · refine ⟨payload.insert field v.normalize, ?_, by rw [lookup_insert_self, hold]; rfl,
          fun k hk => lookup_insert_ne _ _ hk, ?_⟩
        · have hdec' : d.env.decryptJSON encoded (Env.fieldBinding e field) =
              .ok v.normalize := hdec
          rw [Env.decryptFields, hnow]
          simp only [hdec']
        · intro hmem w hw htext
          rw [hold] at hw
          cases hw
          have hcount := honce htext
          rw [List.count_cons_self] at hcount
          have hpos := List.count_pos_iff.2 hmem
          omega
      · refine ⟨payload, ?_, by rw [hnow, hold]; rfl, fun _ _ => rfl, ?_⟩
        · rw [Env.decryptFields, hnow]
          split
          · next encoded heq =>
            exact absurd (isText_normalize.1 ⟨encoded, Option.some.inj heq⟩) hopen
          · rfl
        · intro _ w hw
          rw [hold] at hw
          cases hw
          exact hopen
    obtain ⟨next, heq, hfield, hother, hagain⟩ := hstep
    have hnext : ∀ k ∈ rest, FieldState d e rest next k := by
      intro k hk
      by_cases hfk : field = k
      · subst hfk
        cases hv : e.payload[field]? with
        | none => exact .absent hv (by rw [hfield, hv]; rfl)
        | some v => exact .opened v hv (by rw [hfield, hv]; rfl) (hagain hk v hv)
      · have hsame := hother k hfk
        rcases h k (List.mem_cons_of_mem _ hk) with ⟨hold, hnow⟩ |
          ⟨v, encoded, hold, hnow, hdec, honce⟩ | ⟨v, hold, hnow, hopen⟩
        · exact .absent hold (by rw [hsame, hnow])
        · refine .sealed_ v encoded hold (by rw [hsame, hnow]) hdec (fun htext => ?_)
          have hcount := honce htext
          rwa [List.count_cons_of_ne hfk] at hcount
        · exact .opened v hold (by rw [hsame, hnow]) hopen
    obtain ⟨result, hresult, hlookup⟩ := ih hnext
    refine ⟨result, heq.trans hresult, fun k => ?_⟩
    rw [hlookup k]
    by_cases hfk : field = k
    · subst hfk
      by_cases hmem : field ∈ rest
      · simp [hmem]
      · simp [hmem, hfield]
    · have hne : ¬ k = field := fun hk => hfk hk.symm
      simp [hne, hother k hfk]

theorem decryptFields_congr {e' : Event}
    (h : ∀ field, Env.fieldBinding e' field = Env.fieldBinding e field) (fields : List String)
    (payload : Dict Json) :
    d.env.decryptFields e' fields payload = d.env.decryptFields e fields payload := by
  induction fields generalizing payload with
  | nil => rfl
  | cons field rest ih => simp only [Env.decryptFields, h, ih]

theorem decryptFields_reopens {fields : List String} {payload : Dict Json} {k text : String}
    (hk : k ∈ fields) (hnow : payload[k]? = some (.str text))
    (hforeign : ∀ aad, ∃ err, d.cipher.decryptJSON text aad = .error err) :
    ∃ err, d.env.decryptFields e fields payload = .error err := by
  induction fields generalizing payload with
  | nil => cases hk
  | cons field rest ih =>
    by_cases hfk : field = k
    · subst hfk
      obtain ⟨err, herr⟩ := hforeign (Env.fieldBinding e field)
      have herr' : d.env.decryptJSON text (Env.fieldBinding e field) = .error err := herr
      rw [Env.decryptFields, hnow]
      simp only [herr']
      exact ⟨_, rfl⟩
    · have hrest : k ∈ rest := (List.mem_cons.1 hk).resolve_left (fun h => hfk h.symm)
      rw [Env.decryptFields]
      split
      · split
        · exact ⟨_, rfl⟩
        · exact ih hrest (by rw [lookup_insert_ne _ _ hfk]; exact hnow)
      · exact ih hrest hnow

theorem decryptFields_twice {fields : List String} {payload : Dict Json} {k text encoded : String}
    (hk : 1 < fields.count k) (hnow : payload[k]? = some (.str encoded))
    (hdec : d.cipher.decryptJSON encoded (Env.fieldBinding e k) = .ok (.str text))
    (hforeign : ∀ aad, ∃ err, d.cipher.decryptJSON text aad = .error err) :
    ∃ err, d.env.decryptFields e fields payload = .error err := by
  induction fields generalizing payload with
  | nil => simp at hk
  | cons field rest ih =>
    by_cases hfk : field = k
    · subst hfk
      rw [List.count_cons_self] at hk
      have hdec' : d.env.decryptJSON encoded (Env.fieldBinding e field) = .ok (.str text) := hdec
      rw [Env.decryptFields, hnow]
      simp only [hdec']
      exact decryptFields_reopens (List.count_pos_iff.1 (by omega)) (lookup_insert_self _ _ _)
        hforeign
    · rw [List.count_cons_of_ne hfk] at hk
      rw [Env.decryptFields]
      split
      · split
        · exact ⟨_, rfl⟩
        · exact ih hk (by rw [lookup_insert_ne _ _ hfk]; exact hnow)
      · exact ih hk hnow

end Loops

/-! ## Section 3: Protection and reconstruction -/

section RoundTrip

variable {d : Deployment} {e : Event} {schema : EventSchema}

/-- No key of the payload lies in the reserved namespace. -/
def Unreserved (payload : Dict Json) : Prop :=
  ∀ (k : String) v, payload[k]? = some v → reservedKey k = false

theorem reservedKey_append (f : String) : reservedKey (f ++ Env.searchDigestSuffix) = true := by
  unfold reservedKey
  rw [String.toList_append, List.isSuffixOf_iff_suffix]
  exact List.suffix_append _ _

theorem stripDigests_protected (hc : d.cipher.Lawful) (hreserved : Unreserved e.payload)
    {nonce : Nat → Nat} {fields searchable : List String} {encrypted stored : Dict Json}
    (henc : d.env.encryptFields e nonce 0 fields e.payload = .ok encrypted)
    (hdig : d.env.digestFields e searchable encrypted = .ok stored) :
    searchable.foldl (fun (payload : Dict Json) field =>
      payload.erase (field ++ Env.searchDigestSuffix)) stored = encrypted := by
  apply ext_lookup
  intro k
  rw [stripDigests_lookup]
  by_cases hdigest : ∃ f ∈ searchable, f ++ Env.searchDigestSuffix = k
  · rw [if_pos hdigest]
    obtain ⟨f, -, rfl⟩ := hdigest
    have hnone : e.payload[f ++ Env.searchDigestSuffix]? = none := by
      cases hv : e.payload[f ++ Env.searchDigestSuffix]? with
      | none => rfl
      | some v =>
        have hfree := hreserved _ v hv
        rw [reservedKey_append] at hfree
        cases hfree
    rw [(encryptFields_lookup hc henc _).2 (.inr hnone), hnone]
  · rw [if_neg hdigest]
    apply digestFields_lookup hdig
    intro f hf hfk
    exact hdigest ⟨f, hf, hfk⟩

/-- An encrypted string field is listed once. -/
def TextsListedOnce (schema : EventSchema) (payload : Dict Json) : Prop :=
  ∀ field ∈ schema.encryptedFields, ∀ text, payload[field]? = some (.str text) →
    schema.encryptedFields.count field ≤ 1

theorem protectSensitiveFields_succeeds (schema : EventSchema) (hm : Marshals e.payload)
    (nonce : Nat → Nat) :
    ∃ encrypted stored, d.env.encryptFields e nonce 0 schema.encryptedFields e.payload =
        .ok encrypted ∧
      d.env.digestFields e schema.searchableFields encrypted = .ok stored ∧
      d.env.protectSensitiveFields e schema nonce = .ok { e with payload := stored } := by
  obtain ⟨encrypted, henc⟩ := encryptFields_succeeds hm nonce 0 schema.encryptedFields e.payload
  obtain ⟨stored, hdig⟩ := digestFields_succeeds hm schema.searchableFields encrypted
  refine ⟨encrypted, stored, henc, hdig, ?_⟩
  simp only [Env.protectSensitiveFields, henc, hdig, Except.map]

/-- **Reconstruction undoes protection**, value by value. -/
theorem reconstruct_protected (hc : d.cipher.Lawful) (hreserved : Unreserved e.payload)
    (honce : TextsListedOnce schema e.payload) {nonce : Nat → Nat} {encrypted stored : Dict Json}
    (henc : d.env.encryptFields e nonce 0 schema.encryptedFields e.payload = .ok encrypted)
    (hdig : d.env.digestFields e schema.searchableFields encrypted = .ok stored)
    {schemas : Dict EventSchema}
    (hschema : schemas[schemaKey e.tenantID e.schemaID e.schemaVersion]? = some schema) :
    ∃ payload, d.env.reconstructEventForDigest { e with payload := stored } schemas =
        .ok { e with payload := payload } ∧ SamePayload payload e.payload := by
  have hfields : ∀ k ∈ schema.encryptedFields,
      FieldState d { e with payload := e.payload } schema.encryptedFields encrypted k := by
    intro k hk
    obtain ⟨hin, hout⟩ := encryptFields_lookup hc henc k
    cases hv : e.payload[k]? with
    | none => exact .absent hv (by rw [hout (.inr hv), hv])
    | some v =>
      obtain ⟨encoded, hnow, hdec⟩ := hin hk v hv
      refine .sealed_ v encoded hv hnow hdec ?_
      rintro ⟨text, rfl⟩
      exact honce k hk text hv
  obtain ⟨payload, hpayload, hlookup⟩ := decryptFields_opens hfields
  refine ⟨payload, ?_, ?_⟩
  · have hstrip := stripDigests_protected hc hreserved henc hdig
    have hdec : d.env.decryptFields { e with payload := stored } schema.encryptedFields encrypted =
        d.env.decryptFields e schema.encryptedFields encrypted := by
      apply decryptFields_congr
      intro field
      rfl
    simp only [Env.reconstructEventForDigest, hschema, hstrip, hdec, hpayload, Except.map]
  · intro k
    rw [hlookup k]
    split
    · rw [Option.map_map]
      congr 1
      funext v
      exact Json.normalize_normalize v
    · next hk => rw [(encryptFields_lookup hc henc k).2 (.inl hk)]

end RoundTrip

/-! ## Section 4: Accepted events -/

/-- The deployment under another field cipher. -/
def Deployment.withCipher (d : Deployment) (c : Cipher) : Deployment := { d with cipher := c }

section Accepted

variable {d : Deployment} {control : Control} {r : IngestRequest} {e : Event}
  {schema : EventSchema}

theorem Accepted.payload (h : Accepted d control r e schema) : e.payload = r.event.payload := by
  rw [h.stamped]
  rfl

theorem Accepted.unreserved (h : Accepted d control r e schema) : Unreserved e.payload := by
  have hcheck := checkAll_ok.1 h.valid (rejectReservedSearchDigestNamespace e.payload) (by simp)
  unfold rejectReservedSearchDigestNamespace at hcheck
  split at hcheck
  · next hnone =>
    intro k v hk
    have hfree := List.find?_eq_none.1 hnone (k, v) (mem_entries.2 hk)
    simpa using hfree
  · cases hcheck

theorem Accepted.marshals (h : Accepted d control r e schema) : Marshals e.payload := by
  intro k v hk
  have hcheck := checkAll_ok.1 h.valid (d.checkPayloadSize e r.payloadNil) (by simp)
  cases hnil : r.payloadNil with
  | true =>
    rw [h.payload, r.nil_empty hnil] at hk
    simp at hk
  | false =>
    rw [Deployment.checkPayloadSize, payloadBytes, hnil] at hcheck
    cases hcanon : (Json.obj e.payload.toList).canonicalJSON with
    | error err => simp [hcanon, Except.map] at hcheck
    | ok text =>
      unfold Json.canonicalJSON at hcanon
      cases hrewrite : rewriteNumbers writeNumber (Json.obj e.payload.toList).normalize with
      | error err => rw [hrewrite] at hcanon; cases hcanon
      | ok w =>
        have hvalid := valid_of_rewriteNumbers (fun _ _ => validNumber_of_writeNumber) _ w hrewrite
        rw [Json.normalize, normalizeFields_of_keysSorted (fieldsSorted_entries e.payload),
          Json.valid, validFields_iff] at hvalid
        have hv := hvalid (k, v.normalize) (List.mem_map.2 ⟨(k, v), mem_entries.2 hk, rfl⟩)
        exact ⟨v.normalize.toText, by simp [Json.marshal, hv]⟩

theorem schemaFor_ok {clientID tenantID : String} {e : Event} {schema : EventSchema}
    (h : schemaFor control tenantID clientID e = .ok schema) :
    control.schemas[schemaKey tenantID e.schemaID e.schemaVersion]? = some schema := by
  unfold schemaFor at h
  split at h
  · cases h
  split at h
  · cases h
  next found hfound =>
  split at h
  · cases h
    exact hfound
  · cases h

theorem Accepted.contentDigest (h : Accepted d control r e schema) {payload : Dict Json}
    (hsame : SamePayload payload e.payload) :
    d.env.eventContentDigest { e with payload := payload } = .ok e.sourceDigest := by
  have hcongr : d.env.canonicalEvent (Env.contentOf { e with payload := payload }) =
      d.env.canonicalEvent (Env.contentOf e) := by
    have hleft : Env.contentOf { e with payload := payload } =
        { Env.contentOf e with payload := payload } := rfl
    have hright : Env.contentOf e = { Env.contentOf e with payload := e.payload } := rfl
    rw [Deployment.env_canonicalEvent, hleft, Event.canonicalJSON_congr hsame, ← hright]
  have hdigest : d.env.eventContentDigest e = .ok e.sourceDigest := by
    have hcontent : Env.contentOf e = Env.contentOf (d.stamp r e.tenantID) := by
      conv_lhs => rw [h.stamped]
      rfl
    have hd := h.digest
    unfold Env.eventContentDigest at hd ⊢
    rwa [hcontent]
  rw [← hdigest]
  unfold Env.eventContentDigest
  rw [hcongr]

theorem Accepted.withCipher (h : Accepted d control r e schema) (c : Cipher) :
    Accepted (d.withCipher c) control r e schema :=
  ⟨h.basic, h.waitFor, h.tenant, h.scope, h.digest, h.stamped, h.found, h.valid⟩

end Accepted

/-- **Field protection round-trips** under every lawful cipher exactly when no
    encrypted field that is listed twice holds a string. -/
theorem protection_roundTrips_iff (d : Deployment) (control : Control) (r : IngestRequest)
    {e : Event} {schema : EventSchema} (h : d.accept control r = .ok (e, schema)) :
    (∀ c : Cipher, c.Lawful → ∀ nonce, ∃ stored,
      (d.withCipher c).env.protectSensitiveFields e schema nonce = .ok stored ∧
      (d.withCipher c).env.reconstructAndDerive stored control.schemas = .ok e.sourceDigest) ↔
    TextsListedOnce schema e.payload := by
  have haccepted := Deployment.accept_ok h
  have hschema := schemaFor_ok haccepted.found
  constructor
  · -- a cipher whose texts are all longer than the string cannot have sealed it
    intro hall field hfield text htext
    by_contra hcount
    set c := boxCipher text with hbox
    have hc : c.Lawful := boxCipher_lawful text
    have haccepted' := haccepted.withCipher c
    obtain ⟨encrypted, stored, henc, hdig, hprotect⟩ :=
      protectSensitiveFields_succeeds (d := d.withCipher c) schema
        haccepted'.marshals (fun _ => 0)
    obtain ⟨stored', hstored', hderive⟩ := hall c hc (fun _ => 0)
    rw [hprotect] at hstored'
    cases hstored'
    have hforeign : ∀ aad, ∃ err, (d.withCipher c).cipher.decryptJSON text aad = .error err := by
      intro aad
      apply hc.decryptJSON_foreign
      intro nonce plain other heq
      have hlen := congrArg String.length heq
      simp only [hbox, boxCipher, String.length_append] at hlen
      have hprefix : encryptedPrefix.length = 7 := by decide
      omega
    obtain ⟨encoded, hnow, hdec⟩ :=
      (encryptFields_lookup (d := d.withCipher c) hc henc field).1 hfield _ htext
    obtain ⟨err, herr⟩ := decryptFields_twice (d := d.withCipher c) (e := e)
      (Nat.lt_of_not_le hcount) hnow hdec hforeign
    have hstrip := stripDigests_protected (d := d.withCipher c) hc haccepted'.unreserved henc hdig
    have hdec' : (d.withCipher c).env.decryptFields { e with payload := stored }
        schema.encryptedFields encrypted = .error err := by
      rw [← herr]
      apply decryptFields_congr
      intro field
      rfl
    simp [Env.reconstructAndDerive, Env.reconstructEventForDigest, hschema, hstrip, hdec',
      Except.map] at hderive
  · intro honce c hc nonce
    have haccepted' := haccepted.withCipher c
    obtain ⟨encrypted, stored, henc, hdig, hprotect⟩ :=
      protectSensitiveFields_succeeds (d := d.withCipher c) schema
        haccepted'.marshals nonce
    obtain ⟨payload, hreconstruct, hsame⟩ :=
      reconstruct_protected (d := d.withCipher c) hc haccepted'.unreserved honce henc hdig hschema
    refine ⟨_, hprotect, ?_⟩
    simp only [Env.reconstructAndDerive, hreconstruct]
    exact haccepted'.contentDigest hsame

/-- A note whose text is encrypted. -/
def secretNote : Dict Json := (∅ : Dict Json).insert "note" (.str "hello")

theorem protection_roundTrips_secretNote :
    TextsListedOnce (acceptedNote ["note"] [] secretNote).2 secretNote ∧
      ∃ stored, (developmentDeployment 2).env.protectSensitiveFields
          (acceptedNote ["note"] [] secretNote).1 (acceptedNote ["note"] [] secretNote).2 id =
            .ok stored ∧
        (developmentDeployment 2).env.reconstructAndDerive stored
          (noteControl ["note"] []).schemas =
            .ok (acceptedNote ["note"] [] secretNote).1.sourceDigest := by
  have haccept : (developmentDeployment 2).accept (noteControl ["note"] [])
      (noteRequest secretNote) = .ok ((acceptedNote ["note"] [] secretNote).1,
        (acceptedNote ["note"] [] secretNote).2) := by
    rw [Prod.mk.eta]
    exact eq_ok_okValue (by decide +kernel)
  have hlist : (acceptedNote ["note"] [] secretNote).2.encryptedFields = ["note"] := by
    decide +kernel
  have hpayload : (acceptedNote ["note"] [] secretNote).1.payload = secretNote := by
    decide +kernel
  have honce : TextsListedOnce (acceptedNote ["note"] [] secretNote).2 secretNote := by
    intro field hfield text htext
    rw [hlist] at hfield ⊢
    exact List.nodup_iff_count_le_one.1 (by decide) field
  refine ⟨honce, ?_⟩
  exact (protection_roundTrips_iff _ _ _ haccept).2 (by rw [hpayload]; exact honce)
    (boxCipher "") (boxCipher_lawful "") id

/-- The registry accepts a schema that lists an encrypted field twice; the note
    stored under it cannot be reconstructed. -/
theorem protection_loses_repeated_field :
    registerSchema 0 63900000000000000000 "admin" "action-1" (noteSchema ["note", "note"] [])
        acmeControl = .ok (noteControl ["note", "note"] []) ∧
      (developmentDeployment 2).accept (noteControl ["note", "note"] [])
        (noteRequest secretNote) = .ok (acceptedNote ["note", "note"] [] secretNote) ∧
      ∃ stored, (developmentDeployment 2).env.protectSensitiveFields
          (acceptedNote ["note", "note"] [] secretNote).1
          (acceptedNote ["note", "note"] [] secretNote).2 id = .ok stored ∧
        (developmentDeployment 2).env.reconstructAndDerive stored
          (noteControl ["note", "note"] []).schemas =
            .error (.wrap "cannot decrypt field note" (.plain "invalid encrypted field")) := by
  refine ⟨eq_ok_okValue (by decide +kernel), eq_ok_okValue (by decide +kernel), ?_⟩
  exact ⟨_, eq_ok_okValue (by decide +kernel), by decide +kernel⟩

end AuditGovernance
