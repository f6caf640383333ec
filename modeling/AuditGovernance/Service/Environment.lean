import AuditGovernance.Domain.Numbers
import AuditGovernance.Framework.Sha256
import AuditGovernance.Service.Digest

/-! # The environment of a deployment

    The library functions behind `Env` as a deployment wires them: SHA-256,
    canonical JSON, JSON inside AES-GCM (`internal/security/fieldcrypto.go`)
    and the configured signer. The cipher and the signer stay parameters with
    the laws their users rely on.
-/

namespace AuditGovernance

/-! ## Section 1: Parameters -/

/-- AES-GCM under the configured key, on texts: nonce, plaintext and associated
    data to a sealed text, and back. -/
structure Cipher where
  sealText : Nat → String → String → String
  openText : String → String → Option String

/-- `Open` inverts `Seal` under the same associated data and fails on
    everything else. -/
structure Cipher.Lawful (c : Cipher) : Prop where
  open_sealed : ∀ nonce plain aad, c.openText (c.sealText nonce plain aad) aad = some plain
  open_other : ∀ nonce plain aad other, other ≠ aad → c.openText (c.sealText nonce plain aad) other = none
  open_foreign : ∀ text aad, (∀ nonce plain other, text ≠ c.sealText nonce plain other) →
    c.openText text aad = none

/-- What a deployment chooses. -/
structure Deployment where
  /-- SHA-256, in hexadecimal. -/
  hash : String → String
  cipher : Cipher
  /-- HMAC under the field key, in base64. -/
  mac : String → String
  sign : String → Except Err String
  verify : String → String → Except Err Bool
  algorithm : String
  segmentSize : Int
  publisher : Bool
  /-- `Config.MaxEventBytes`. -/
  maxEventBytes : Nat
  /-- `Config.ServerVersion`. -/
  serverVersion : String

/-! ## Section 2: Field encryption -/

def encryptedPrefix : String := "enc:v1:"

/-- `EncryptJSON`. -/
def Cipher.encryptJSON (c : Cipher) (value : Json) (aad : String) (nonce : Nat) :
    Except Err String :=
  value.marshal.map fun plain => encryptedPrefix ++ c.sealText nonce plain aad

/-- `DecryptJSON`. -/
def Cipher.decryptJSON (c : Cipher) (encoded aad : String) : Except Err Json :=
  match encoded.toList.dropPrefix? encryptedPrefix.toList with
  | none => .error (.plain "invalid encrypted field")
  | some sealed =>
    match c.openText (String.ofList sealed) aad with
    | none => .error (.plain "cipher: message authentication failed")
    | some plain =>
      match Json.decode plain with
      | none => .error (.plain "invalid character in encrypted field")
      | some value => .ok value

def searchDigestMark : String := "sd2:"

/-- `SearchDigestBound`: the value, the tenant and the field, framed by NUL. -/
def searchDigestBound (mac : String → String) (value : Json) (tenantID field : String) :
    Except Err String :=
  value.marshal.map fun plain =>
    searchDigestMark ++ mac (plain ++ "\x00" ++ tenantID ++ "\x00" ++ field)

/-! ## Section 3: The wiring -/

/-- The canonical text `eventHash` is taken of. -/
def linkText (digest prevHash : String) (sequence : Int) (streamID : String) : String :=
  (Json.obj [("digest", .str digest), ("prev_hash", .str prevHash), ("sequence", .int sequence),
    ("stream_id", .str streamID)]).toText

/-- The environment of a deployment. -/
def Deployment.env (d : Deployment) : Env where
  hashBytes := d.hash
  canonicalEvent := Event.canonicalJSON
  legacyCanonicalEvent := Event.legacyCanonicalJSON Json.float64Text
  canonicalLink := linkText
  encryptJSON := d.cipher.encryptJSON
  decryptJSON := d.cipher.decryptJSON
  searchDigestBound := searchDigestBound d.mac
  sign := d.sign
  verify := d.verify
  algorithm := d.algorithm
  segmentSize := d.segmentSize
  publisher := d.publisher

@[simp] theorem Deployment.env_canonicalEvent (d : Deployment) :
    d.env.canonicalEvent = Event.canonicalJSON := by
  simp only [Deployment.env]

@[simp] theorem Deployment.env_legacyCanonicalEvent (d : Deployment) (e : Event) :
    d.env.legacyCanonicalEvent e = e.legacyCanonicalJSON Json.float64Text := by
  simp only [Deployment.env]

@[simp] theorem Deployment.env_hashBytes (d : Deployment) : d.env.hashBytes = d.hash := rfl

/-! ## Section 4: A development deployment -/

/-- The signer for local development (`hmacSigner`). -/
def hmacSign (secret data : String) : Except Err String := .ok (Sha256.hmacHex secret data)

def hmacVerify (secret data signature : String) : Except Err Bool :=
  (hmacSign secret data).map (fun expected => expected = signature)

/-- The parts of a boxed text: nonce, plaintext and associated data. -/
def boxParts (nonce plain aad : String) : Json := .arr [.str nonce, .str plain, .str aad]

/-- A cipher that writes everything down in clear behind a mark: lawful, and
    enough to run the model. -/
def boxCipher (mark : String) : Cipher where
  sealText := fun nonce plain aad => mark ++ (boxParts (Nat.repr nonce) plain aad).toText
  openText := fun text aad =>
    match text.toList.dropPrefix? mark.toList with
    | none => none
    | some boxed =>
      match Json.parse (String.ofList boxed) with
      | some (.arr [.str nonce, .str plain, .str bound]) =>
        if bound = aad ∧ Nat.repr (Decimal.value nonce.toList) = nonce ∧
            (boxParts nonce plain bound).toText = String.ofList boxed then some plain
        else none
      | _ => none

theorem boxParts_valid (nonce plain aad : String) : (boxParts nonce plain aad).valid = true := rfl

theorem dropPrefix_append (mark text : String) :
    (mark ++ text).toList.dropPrefix? mark.toList = some text.toList := by
  rw [String.toList_append, List.dropPrefix?_eq_some_iff]
  exact ⟨_, rfl, by simp⟩

theorem boxCipher_open (mark : String) (nonce : Nat) (plain aad other : String) :
    (boxCipher mark).openText ((boxCipher mark).sealText nonce plain aad) other =
      if aad = other then some plain else none := by
  simp only [boxCipher, dropPrefix_append, String.ofList_toList,
    Json.parse_toText (boxParts_valid _ _ _)]
  rw [boxParts]
  have hnonce : Decimal.value (Nat.repr nonce).toList = nonce := by
    rw [Nat.toList_repr]
    exact Nat.ofDigitChars_toDigits (by decide) (by decide)
  simp only [boxParts, hnonce, and_true]

theorem boxCipher_lawful (mark : String) : (boxCipher mark).Lawful := by
  refine ⟨?_, ?_, ?_⟩
  · intro nonce plain aad
    rw [boxCipher_open, if_pos rfl]
  · intro nonce plain aad other hne
    rw [boxCipher_open, if_neg (Ne.symm hne)]
  · intro text aad hforeign
    -- whatever opens is the box of its own parts
    cases hopen : (boxCipher mark).openText text aad with
    | none => rfl
    | some out =>
      exfalso
      simp only [boxCipher] at hopen
      split at hopen
      · cases hopen
      next boxed hboxed =>
      split at hopen
      · next nonce plain bound hparse =>
        split_ifs at hopen with hbox
        obtain ⟨-, hnonce, htext⟩ := hbox
        apply hforeign (Decimal.value nonce.toList) plain bound
        obtain ⟨pre, heq, hpre⟩ := List.dropPrefix?_eq_some_iff.1 hboxed
        have hmark : pre = mark.toList := by simpa using hpre
        apply String.toList_injective
        simp only [boxCipher, String.toList_append]
        rw [hnonce, htext, heq, hmark]
        simp
      · cases hopen

/-- A deployment without encryption keys of its own, sealing segments of
    `segmentSize` events. -/
def developmentDeployment (segmentSize : Int) : Deployment where
  hash := Sha256.hex
  cipher := boxCipher ""
  mac := Sha256.hmacHex "development"
  sign := hmacSign "development"
  verify := hmacVerify "development"
  algorithm := "HMAC-SHA256(dev-compatible)"
  segmentSize := segmentSize
  publisher := false
  maxEventBytes := 262144
  serverVersion := "development"

end AuditGovernance
