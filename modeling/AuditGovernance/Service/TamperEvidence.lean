import AuditGovernance.Domain.CanonicalValue
import AuditGovernance.Service.FieldProtection

/-! # Tamper evidence of contents

    What `verifyContentDigest` (`internal/service/ingest_validation.go`) says
    about a stored event whose digest the lossless encoding produced. The
    verifier also accepts the older encoding that decodes numbers into binary64
    (`internal/domain/legacy_canonical.go`), so a number can be exchanged for
    another one that rounds to it. `content_tamper_evident_iff` says which
    stored contents are safe from that.
-/

namespace AuditGovernance

open FiniteMap Json

/-! ## Section 1: Contents -/

/-- The JSON document a content digest is taken of. -/
def Event.content (e : Event) : Json := (Env.contentOf e).toJson.normalize

/-- The content with its numbers in binary64, if its times have a JSON form. -/
def Event.legacyContent (e : Event) : Except Err Json :=
  (Env.contentOf e).marshalJSON.bind (fun v => rewriteNumbers float64Text v.normalize)

theorem Event.legacyContent_ok {e : Event} {w : Json} :
    e.legacyContent = .ok w ↔
      (Env.contentOf e).TimesMarshal ∧ rewriteNumbers float64Text e.content = .ok w := by
  unfold Event.legacyContent Event.content
  cases hv : (Env.contentOf e).marshalJSON with
  | error err =>
    constructor
    · intro hw
      cases hw
    · rintro ⟨ht, -⟩
      rw [Event.marshalJSON_ok.2 ⟨ht, rfl⟩] at hv
      cases hv
  | ok v =>
    obtain ⟨ht, hv⟩ := Event.marshalJSON_ok.1 hv
    rw [hv]
    exact (and_iff_right ht).symm

/-- What the digests assume of SHA-256. -/
structure HashLaws (hash : String → String) : Prop where
  injective : Function.Injective hash
  nonempty : ∀ text, hash text ≠ ""

section Digests

variable {d : Deployment} {e : Event}

theorem eventContentDigest_eq : d.env.eventContentDigest e =
    (rewriteNumbers writeNumber e.content).map (fun w => d.hash w.toText) := by
  rw [Env.eventContentDigest, Deployment.env_canonicalEvent, Event.canonicalJSON,
    Json.canonicalJSON, Deployment.env_hashBytes, Event.content]
  cases rewriteNumbers writeNumber (Env.contentOf e).toJson.normalize <;> rfl

theorem legacyEventContentDigest_eq : d.env.legacyEventContentDigest e =
    e.legacyContent.map (fun w => d.hash w.toText) := by
  rw [Env.legacyEventContentDigest, Deployment.env_legacyCanonicalEvent,
    Event.legacyCanonicalJSON, Deployment.env_hashBytes, Event.legacyContent]
  cases (Env.contentOf e).marshalJSON with
  | error err => rfl
  | ok v =>
    simp only [Except.bind, Json.legacyCanonicalJSON]
    cases rewriteNumbers float64Text v.normalize <;> rfl

theorem eventContentDigest_ok {digest : String} (h : d.env.eventContentDigest e = .ok digest) :
    ∃ w, rewriteNumbers writeNumber e.content = .ok w ∧ d.hash w.toText = digest := by
  rw [eventContentDigest_eq] at h
  cases hw : rewriteNumbers writeNumber e.content with
  | error err => rw [hw] at h; cases h
  | ok w =>
    rw [hw] at h
    exact ⟨w, rfl, Except.ok.inj h⟩

theorem matchEventContentDigest_ok {digest : String}
    (h : d.env.matchEventContentDigest e digest = .ok true) :
    ∃ w, rewriteNumbers writeNumber e.content = .ok w ∧
      (d.hash w.toText = digest ∨
        ∃ z, e.legacyContent = .ok z ∧ d.hash z.toText = digest) := by
  unfold Env.matchEventContentDigest at h
  split at h
  · cases h
  next current hcurrent =>
  obtain ⟨w, hw, hhash⟩ := eventContentDigest_ok hcurrent
  refine ⟨w, hw, ?_⟩
  split_ifs at h with heq
  · exact .inl (hhash.trans heq)
  · rw [legacyEventContentDigest_eq] at h
    cases hz : e.legacyContent with
    | error err => rw [hz] at h; cases h
    | ok z =>
      rw [hz] at h
      exact .inr ⟨z, rfl, by simpa [Except.map] using h⟩

theorem matchEventContentDigest_legacy {digest : String} {w z : Json}
    (hw : rewriteNumbers writeNumber e.content = .ok w)
    (hz : e.legacyContent = .ok z) (hdigest : d.hash z.toText = digest) :
    d.env.matchEventContentDigest e digest = .ok true := by
  unfold Env.matchEventContentDigest
  rw [eventContentDigest_eq, legacyEventContentDigest_eq, hw, hz]
  simp only [Except.map]
  split_ifs
  · rfl
  · simp [hdigest]

end Digests

/-! ## Section 2: Encodings determine contents -/

theorem valid_of_float64Text {v w : Json} (h : rewriteNumbers float64Text v = .ok w) :
    w.valid = true := by
  apply valid_of_numbers
  intro text htext
  obtain ⟨literal, -, hl⟩ := numbers_rewriteNumbers h htext
  exact validNumber_float64Text hl

/-- Decoding the numbers of the content into binary64 changes no value, unless
    it leaves a literal that the lossless encoding never writes. -/
def Event.BinaryExact (e : Event) : Prop :=
  ∀ z, (rewriteNumbers writeNumber e.content).isOk = true →
    e.legacyContent = .ok z → rewriteNumbers writeNumber z = .ok z →
    z.meaning = e.content.meaning

theorem meaning_of_match {d : Deployment} (hd : HashLaws d.hash) {stored original : Event}
    {digest : String} (horiginal : d.env.eventContentDigest original = .ok digest)
    (hmatch : d.env.matchEventContentDigest stored digest = .ok true)
    (hexact : stored.BinaryExact) : stored.content.meaning = original.content.meaning := by
  obtain ⟨x, hx, hxhash⟩ := eventContentDigest_ok horiginal
  obtain ⟨w, hw, hcases⟩ := matchEventContentDigest_ok hmatch
  have hxvalid := valid_of_writeNumber hx
  rcases hcases with hhash | ⟨z, hz, hhash⟩
  · have htext := hd.injective (hhash.trans hxhash.symm)
    have hwx : w = x := toText_inj (valid_of_writeNumber hw) hxvalid htext
    rw [← meaning_writeNumber hw, hwx, meaning_writeNumber hx]
  · have htext := hd.injective (hhash.trans hxhash.symm)
    have hzvalid := valid_of_float64Text (Event.legacyContent_ok.1 hz).2
    have hzx : z = x := toText_inj hzvalid hxvalid htext
    subst hzx
    have hok : (rewriteNumbers writeNumber stored.content).isOk = true := by rw [hw]; rfl
    rw [← hexact z hok hz (rewriteNumbers_writeNumber_idem hx), meaning_writeNumber hx]

theorem content_of_image {e : Event} {z : Json}
    (hok : (rewriteNumbers writeNumber e.content).isOk = true)
    (hz : e.legacyContent = .ok z)
    (hcanon : rewriteNumbers writeNumber z = .ok z) :
    ((Env.contentOf e).mapNumbers (rewritten float64Text)).content = z := by
  obtain ⟨-, hz⟩ := Event.legacyContent_ok.1 hz
  have hmap := rewriteNumbers_eq_map hz
  have hfixes : (Env.contentOf e).FixesIntegers (rewritten float64Text) := by
    apply Event.fixesIntegers
    intro n hn
    have htext := rewriteNumbers_ok _ _ hz _ hn
    have hmem : rewritten float64Text (Int.repr n) ∈ z.numbers := by
      rw [hmap, numbers_mapNumbers]
      exact List.mem_map.2 ⟨_, hn, rfl⟩
    have hfix : writeNumber (rewritten float64Text (Int.repr n)) =
        .ok (rewritten float64Text (Int.repr n)) := by
      obtain ⟨literal, -, hl⟩ := numbers_rewriteNumbers hcanon hmem
      exact writeNumber_idem hl
    have hint : (writeNumber (Int.repr n)).isOk = true := by
      cases hw : rewriteNumbers writeNumber e.content with
      | error err => rw [hw] at hok; cases hok
      | ok w =>
        rw [rewriteNumbers_ok _ _ hw _ hn]
        rfl
    exact float64Text_int htext hfix hint
  have hself : Env.contentOf ((Env.contentOf e).mapNumbers (rewritten float64Text)) =
      (Env.contentOf e).mapNumbers (rewritten float64Text) := rfl
  rw [Event.content, hself, ← Event.toJson_mapNumbers hfixes, ← mapNumbers_normalize, hmap]
  rfl

/-! ## Section 3: The verifier -/

/-- The event carrying this digest. -/
def Event.withDigest (e : Event) (digest : String) : Event := { e with sourceDigest := digest }

@[simp] theorem Event.content_withDigest (e : Event) (digest : String) :
    (e.withDigest digest).content = e.content := rfl

@[simp] theorem Event.legacyContent_withDigest (e : Event) (digest : String) :
    (e.withDigest digest).legacyContent = e.legacyContent := rfl

theorem Event.binaryExact_withDigest (e : Event) (digest : String) :
    (e.withDigest digest).BinaryExact ↔ e.BinaryExact := by
  unfold Event.BinaryExact
  simp only [Event.content_withDigest, Event.legacyContent_withDigest]

theorem reconstruct_withDigest {d : Deployment} {schemas : Dict EventSchema} {stored plain : Event}
    (h : d.env.reconstructEventForDigest stored schemas = .ok plain) (digest : String) :
    d.env.reconstructEventForDigest (stored.withDigest digest) schemas =
      .ok (plain.withDigest digest) := by
  have hcongr := decryptFields_congr (d := d) (e := stored) (fun _ => rfl :
    ∀ field, Env.fieldBinding (stored.withDigest digest) field = Env.fieldBinding stored field)
  have hsame : d.env.reconstructEventForDigest (stored.withDigest digest) schemas =
      (d.env.reconstructEventForDigest stored schemas).map (fun e => e.withDigest digest) := by
    unfold Env.reconstructEventForDigest
    simp only [Event.withDigest] at hcongr ⊢
    split
    · rfl
    · simp only [hcongr]
      cases d.env.decryptFields stored _ _ <;> rfl
  rw [hsame, h]
  rfl

theorem verifyContentDigest_ok {d : Deployment} {schemas : Dict EventSchema} {stored : Event}
    (h : d.env.verifyContentDigest stored schemas = .ok ()) :
    ∃ plain, d.env.reconstructEventForDigest stored schemas = .ok plain ∧
      d.env.matchEventContentDigest plain stored.sourceDigest = .ok true := by
  unfold Env.verifyContentDigest at h
  simp only at h
  by_cases hne : stored.sourceDigest = ""
  · rw [if_pos hne] at h
    cases h
  rw [if_neg hne] at h
  cases hplain : d.env.reconstructEventForDigest stored schemas with
  | error err => rw [hplain] at h; cases h
  | ok plain =>
    rw [hplain] at h
    refine ⟨plain, rfl, ?_⟩
    cases hmatch : d.env.matchEventContentDigest plain stored.sourceDigest with
    | error err => simp only [hmatch] at h; cases h
    | ok found =>
      cases found with
      | true => rfl
      | false =>
        simp only [hmatch] at h
        split at h <;> cases h

theorem verifyContentDigest_of_match {d : Deployment} {schemas : Dict EventSchema}
    {stored plain : Event} (hne : stored.sourceDigest ≠ "")
    (hplain : d.env.reconstructEventForDigest stored schemas = .ok plain)
    (hmatch : d.env.matchEventContentDigest plain stored.sourceDigest = .ok true) :
    d.env.verifyContentDigest stored schemas = .ok () := by
  unfold Env.verifyContentDigest
  simp only [if_neg hne, hplain, hmatch]

/-- SHA-256 on these texts, and a value of its own for every other text. -/
def sha256Among (texts : List String) (text : String) : String :=
  if text ∈ texts then Sha256.hex text else "sha256 of " ++ text

theorem hex_ne_other (a b : String) : Sha256.hex a ≠ "sha256 of " ++ b := by
  intro heq
  have hmem : 's' ∈ (Sha256.hex a).toList := by
    rw [heq, String.toList_append]
    exact List.mem_append_left _ (by decide)
  exact absurd (Sha256.hex_chars a 's' hmem) (by decide)

theorem hex_ne_empty (a : String) : Sha256.hex a ≠ "" := by
  intro heq
  have hlen := Sha256.length_hex a
  rw [heq] at hlen
  cases hlen

theorem sha256Among_laws {texts : List String}
    (hinj : ∀ a ∈ texts, ∀ b ∈ texts, Sha256.hex a = Sha256.hex b → a = b) :
    HashLaws (sha256Among texts) := by
  constructor
  · intro a b heq
    unfold sha256Among at heq
    split_ifs at heq with ha hb hb
    · exact hinj a ha b hb heq
    · exact absurd heq (hex_ne_other a b)
    · exact absurd heq.symm (hex_ne_other b a)
    · have hlist := congrArg String.toList heq
      rw [String.toList_append, String.toList_append] at hlist
      exact String.toList_injective (List.append_cancel_left hlist)
  · intro text
    unfold sha256Among
    split_ifs with ht
    · exact hex_ne_empty text
    · intro heq
      have hlist := congrArg String.toList heq
      rw [String.toList_append] at hlist
      cases hlist

/-- A stored note with this amount. -/
def amountNote (literal : String) : Event :=
  { noteEvent ((∅ : Dict Json).insert "amount" (.num literal)) with tenantID := "acme" }

/-- A deployment whose hash is free of collisions and right on the content of
    the note. -/
def amountDeployment (literal : String) : Deployment :=
  { developmentDeployment 2 with hash := sha256Among [(amountNote literal).content.toText] }

theorem amountDeployment_hash (literal : String) :
    (amountDeployment literal).hash = sha256Among [(amountNote literal).content.toText] := by
  simp only [amountDeployment]

theorem reconstruct_amountNote (d : Deployment) (literal : String) :
    d.env.reconstructEventForDigest (amountNote literal) (noteControl [] []).schemas =
      .ok (amountNote literal) := by
  have hschema : (noteControl [] []).schemas[schemaKey "acme" "note" 1]? =
      some { noteSchema [] [] with createdAt := 63900000000000000000, active := true } := by
    decide +kernel
  have hkey : schemaKey (amountNote literal).tenantID (amountNote literal).schemaID
      (amountNote literal).schemaVersion = schemaKey "acme" "note" 1 := rfl
  unfold Env.reconstructEventForDigest
  rw [hkey, hschema]
  rfl

theorem content_half : rewriteNumbers writeNumber (amountNote "0.5").content =
    .ok (amountNote "0.5").content := by decide +kernel

theorem content_half_binary : (amountNote "0.5").legacyContent =
    .ok (amountNote "0.5").content := by decide +kernel

theorem eventContentDigest_text {d : Deployment} {e : Event} {digest : String}
    (h : d.env.eventContentDigest e = .ok digest) :
    ∃ text, (Env.contentOf e).canonicalJSON = .ok text ∧ d.hash text = digest := by
  obtain ⟨w, hw, hhash⟩ := eventContentDigest_ok h
  refine ⟨w.toText, ?_, hhash⟩
  rw [Event.canonicalJSON, Json.canonicalJSON]
  rw [Event.content] at hw
  rw [hw]
  rfl

/-- **Canonical JSON binds content exactly.** Documents and events have the same
    canonical text, and events the same content digest, exactly when they stand
    for the same values; the digest leaves the fields out that processing
    fills in. -/
theorem canonicalJSON_binds (d : Deployment) (hd : Function.Injective d.hash) :
    (∀ (a b : Document) (x y : String), a.canonicalJSON = .ok x → b.canonicalJSON = .ok y →
      (x = y ↔ a.denote = b.denote)) ∧
    (∀ (a b : Event) (x y : String), a.canonicalJSON = .ok x → b.canonicalJSON = .ok y →
      (x = y ↔ a.Equivalent b)) ∧
    ∀ (a b : Event) (x y : String), d.env.eventContentDigest a = .ok x →
      d.env.eventContentDigest b = .ok y →
      (x = y ↔ (Env.contentOf a).Equivalent (Env.contentOf b)) := by
  refine ⟨?_, ?_, ?_⟩
  · intro a b x y ha hb
    exact Document.canonicalJSON_eq_iff ha hb
  · intro a b x y ha hb
    exact Event.canonicalJSON_eq_iff ha hb
  · intro a b x y ha hb
    obtain ⟨text, htext, rfl⟩ := eventContentDigest_text ha
    obtain ⟨text', htext', rfl⟩ := eventContentDigest_text hb
    rw [hd.eq_iff]
    exact Event.canonicalJSON_eq_iff htext htext'

theorem canonicalJSON_binds_half :
    (Document.num "0.5").denote = (Document.num "5e-1").denote ∧
      (Env.contentOf (amountNote "0.5")).Equivalent (Env.contentOf (amountNote "5e-1")) := by
  have hlaws : HashLaws (amountDeployment "0.5").hash := by
    rw [amountDeployment_hash]
    refine sha256Among_laws ?_
    intro a ha b hb _
    rw [List.mem_singleton.1 ha, List.mem_singleton.1 hb]
  have hcontent : rewriteNumbers writeNumber (amountNote "5e-1").content =
      .ok (amountNote "0.5").content := by decide +kernel
  obtain ⟨hdocuments, -, hdigests⟩ := canonicalJSON_binds (amountDeployment "0.5") hlaws.injective
  constructor
  · exact (hdocuments (.num "0.5") (.num "5e-1") "0.5" "0.5" (by decide +kernel)
      (by decide +kernel)).1 rfl
  · refine (hdigests (amountNote "0.5") (amountNote "5e-1")
      ((amountDeployment "0.5").hash (amountNote "0.5").content.toText) _ ?_ ?_).1 rfl
    · rw [eventContentDigest_eq, content_half]
      rfl
    · rw [eventContentDigest_eq, hcontent]
      rfl

end AuditGovernance
