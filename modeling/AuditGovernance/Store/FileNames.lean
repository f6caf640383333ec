import AuditGovernance.Domain.Identifiers
import AuditGovernance.Framework.PercentCode
import AuditGovernance.Framework.Sha256

/-! # File names of a tenant

    Key components as file names (`EncodeKeyComponent` in
    `internal/fsutil/fsutil.go`) and the places where the file-backed store
    keeps a tenant's data (`internal/store/hotcold_files.go`,
    `internal/store/publication.go`, `internal/store/query_snapshot.go`).

    The component code is injective. The file name of a tenant is not: a long
    id is named by its digest behind `sha256-`, and that name is itself an
    acceptable short id.
-/

namespace AuditGovernance

/-! ## Section 1: Key components -/

/-- `isSafeComponentByte`. -/
def isSafeComponentByte (b : Nat) : Bool :=
  (97 ≤ b ∧ b ≤ 122) ∨ (65 ≤ b ∧ b ≤ 90) ∨ (48 ≤ b ∧ b ≤ 57) ∨ b = 45 ∨ b = 95 ∨ b = 46

/-- The safe archive-key alphabet. -/
def componentAlphabet : PercentCode.Alphabet where
  safe := isSafeComponentByte
  ascii := by
    intro b hb
    simp only [isSafeComponentByte, decide_eq_true_eq] at hb
    omega
  percent := by decide

/-- `EncodeKeyComponent`. -/
def encodeKeyComponent (value : String) : String :=
  if value = "" then "%"
  else if value = "." then "%2E"
  else if value = ".." then "%2E%2E"
  else String.ofList (PercentCode.encode componentAlphabet (Sha256.utf8 value))

/-- The bytes a text takes once everything outside the safe alphabet is
    escaped. -/
def escapedLength (text : String) : Nat :=
  text.utf8ByteSize + 2 * (Sha256.utf8 text).countP (fun b => !isSafeComponentByte b)

theorem utf8_lt (text : String) : ∀ b ∈ Sha256.utf8 text, b < 256 := by
  intro b hb
  obtain ⟨byte, -, rfl⟩ := List.mem_map.1 hb
  exact byte.toNat_lt

theorem length_utf8 (text : String) : (Sha256.utf8 text).length = text.utf8ByteSize := by
  rw [Sha256.utf8, List.length_map]
  rfl

theorem utf8_ofList (chars : List Char) :
    Sha256.utf8 (String.ofList chars) = (chars.flatMap String.utf8EncodeChar).map UInt8.toNat := by
  rw [Sha256.utf8, String.toByteArray_ofList]
  simp [List.utf8Encode]

/-- The bytes of an ASCII text are its characters. -/
theorem utf8_of_ascii {text : String} (h : ∀ c ∈ text.toList, c.toNat < 128) :
    Sha256.utf8 text = text.toList.map Char.toNat := by
  have hgen : ∀ chars : List Char, (∀ c ∈ chars, c.toNat < 128) →
      (chars.flatMap String.utf8EncodeChar).map UInt8.toNat = chars.map Char.toNat := by
    intro chars hchars
    induction chars with
    | nil => rfl
    | cons c rest ih =>
      have hc := hchars c List.mem_cons_self
      have ih := ih (fun d hd => hchars d (List.mem_cons_of_mem _ hd))
      have hencode : String.utf8EncodeChar c = [UInt8.ofNat c.toNat] := by
        have hval : c.val.toNat ≤ 127 := Nat.le_of_lt_succ hc
        unfold String.utf8EncodeChar
        simp only [hval, if_true]
        rfl
      have hbyte : (UInt8.ofNat c.toNat).toNat = c.toNat := by
        rw [UInt8.toNat_ofNat', Nat.mod_eq_of_lt (by omega)]
      rw [List.flatMap_cons, hencode, List.singleton_append, List.map_cons, List.map_cons, ih, hbyte]
  have hutf8 := utf8_ofList text.toList
  rw [String.ofList_toList] at hutf8
  rw [hutf8, hgen text.toList h]

theorem utf8_inj {a b : String} (h : Sha256.utf8 a = Sha256.utf8 b) : a = b := by
  have hlist : a.toByteArray.data.toList = b.toByteArray.data.toList :=
    List.map_injective_iff.2 (fun _ _ => UInt8.toNat_inj.1) h
  apply String.toByteArray_inj.1
  apply ByteArray.ext
  exact Array.toList_inj.1 hlist

theorem decode_encodeKeyComponent (value : String) :
    PercentCode.decode (encodeKeyComponent value).toList =
      if value = "" then none else some (Sha256.utf8 value) := by
  unfold encodeKeyComponent
  split_ifs with hempty hdot hdots
  · decide
  · subst hdot
    decide +kernel
  · subst hdots
    decide +kernel
  · rw [String.toList_ofList, PercentCode.decode_encode (utf8_lt value)]

/-- **The component code is injective.** -/
theorem encodeKeyComponent_inj {a b : String} (h : encodeKeyComponent a = encodeKeyComponent b) :
    a = b := by
  have hdecode := decode_encodeKeyComponent a
  rw [h, decode_encodeKeyComponent b] at hdecode
  split_ifs at hdecode with hb ha ha
  · rw [ha, hb]
  · exact utf8_inj (Option.some.inj hdecode).symm

/-! ### Characters and length -/

theorem utf8ByteSize_of_ascii {text : String} (h : ∀ c ∈ text.toList, c.toNat < 128) :
    text.utf8ByteSize = text.toList.length := by
  rw [← length_utf8, utf8_of_ascii h, List.length_map]

theorem mem_encodeKeyComponent {value : String} {c : Char}
    (h : c ∈ (encodeKeyComponent value).toList) :
    isSafeComponentByte c.toNat = true ∨ c = '%' ∨ ∃ n < 16, c = PercentCode.upperHex n := by
  unfold encodeKeyComponent at h
  split_ifs at h
  · have hc : c = '%' := by simpa using h
    exact .inr (.inl hc)
  · have hc : c = '%' ∨ c = '2' ∨ c = 'E' := by simpa using h
    rcases hc with rfl | rfl | rfl
    · exact .inr (.inl rfl)
    · exact .inl (by decide)
    · exact .inl (by decide)
  · have hc : c = '%' ∨ c = '2' ∨ c = 'E' := by
      have hlist : c ∈ ['%', '2', 'E', '%', '2', 'E'] := h
      simp only [List.mem_cons, List.not_mem_nil, or_false] at hlist
      tauto
    rcases hc with rfl | rfl | rfl
    · exact .inr (.inl rfl)
    · exact .inl (by decide)
    · exact .inl (by decide)
  · rw [String.toList_ofList] at h
    exact PercentCode.mem_encode (utf8_lt value) h

theorem ascii_encodeKeyComponent (value : String) :
    ∀ c ∈ (encodeKeyComponent value).toList, c.toNat < 128 := by
  intro c hc
  rcases mem_encodeKeyComponent hc with hsafe | rfl | ⟨n, hn, rfl⟩
  · exact componentAlphabet.ascii _ hsafe
  · decide
  · exact PercentCode.upperHex_lt hn

theorem length_encodeKeyComponent {value : String} (hempty : value ≠ "") (hdot : value ≠ ".")
    (hdots : value ≠ "..") : (encodeKeyComponent value).toList.length = escapedLength value := by
  rw [encodeKeyComponent, if_neg hempty, if_neg hdot, if_neg hdots, String.toList_ofList,
    PercentCode.length_encode, length_utf8]
  rfl

theorem length_encodeKeyComponent_cases (value : String) :
    (encodeKeyComponent value).toList.length = escapedLength value ∨
      (encodeKeyComponent value).toList.length ≤ 6 ∧ escapedLength value ≤ 2 := by
  by_cases hempty : value = ""
  · subst hempty
    exact .inr (by decide +kernel)
  by_cases hdot : value = "."
  · subst hdot
    exact .inr (by decide +kernel)
  by_cases hdots : value = ".."
  · subst hdots
    exact .inr (by decide +kernel)
  exact .inl (length_encodeKeyComponent hempty hdot hdots)

theorem encodeKeyComponent_of_safe {value : String}
    (hsafe : ∀ c ∈ value.toList, isSafeComponentByte c.toNat = true) (hlong : 2 < value.toList.length) :
    encodeKeyComponent value = value := by
  have hempty : value ≠ "" := by
    rintro rfl
    simp at hlong
  have hdot : value ≠ "." := by
    rintro rfl
    simp at hlong
  have hdots : value ≠ ".." := by
    rintro rfl
    exact absurd hlong (by decide)
  have hbytes : Sha256.utf8 value = value.toList.map Char.toNat :=
    utf8_of_ascii (fun c hc => componentAlphabet.ascii _ (hsafe c hc))
  rw [encodeKeyComponent, if_neg hempty, if_neg hdot, if_neg hdots, hbytes,
    PercentCode.encode_of_safe hsafe, String.ofList_toList]

/-! ## Section 2: The files of a tenant -/

/-- The name of a tenant that is named by its digest. -/
def digestName (tenantID : String) : String := "sha256-" ++ Sha256.hex tenantID

/-- `tenantFileName`. -/
def tenantFileName (tenantID : String) : String :=
  let encoded := encodeKeyComponent tenantID
  if encoded.utf8ByteSize + ".json.tmp".utf8ByteSize ≤ 255 then encoded else digestName tenantID

/-- `tenantFilePath`, the hot document, under a clean root directory. -/
def tenantFilePath (root tenantID : String) : String :=
  root ++ "/tenants/" ++ tenantFileName tenantID ++ ".json"

/-- `ledgerFilePath`. -/
def ledgerFilePath (root tenantID : String) : String :=
  root ++ "/ledger/" ++ tenantFileName tenantID ++ ".jsonl"

/-- The directory above every `publicationPath` of a tenant. -/
def publicationDir (root tenantID : String) : String :=
  root ++ "/publications/" ++ tenantFileName tenantID

/-- The directory of a tenant's query snapshots. -/
def querySnapshotDir (root tenantID : String) : String :=
  root ++ "/query-snapshots/" ++ tenantFileName tenantID

/-- Two tenants share neither a file nor a directory. -/
structure StoredApart (root a b : String) : Prop where
  name : tenantFileName a ≠ tenantFileName b
  hot : tenantFilePath root a ≠ tenantFilePath root b
  ledger : ledgerFilePath root a ≠ ledgerFilePath root b
  publications : publicationDir root a ≠ publicationDir root b
  querySnapshots : querySnapshotDir root a ≠ querySnapshotDir root b

/-- The escaped id is too long for a file name with its suffix. -/
def NamedByDigest (tenantID : String) : Prop := 246 < escapedLength tenantID

/-- `b` is the name that the long id `a` is filed under. -/
def Shadows (a b : String) : Prop := NamedByDigest a ∧ b = digestName a

theorem tenantFileName_short {t : String} (h : ¬ NamedByDigest t) :
    tenantFileName t = encodeKeyComponent t := by
  rw [NamedByDigest] at h
  have hlength := length_encodeKeyComponent_cases t
  have hsuffix : ".json.tmp".utf8ByteSize = 9 := rfl
  simp only [tenantFileName, utf8ByteSize_of_ascii (ascii_encodeKeyComponent t), hsuffix]
  rw [if_pos (by omega)]

theorem tenantFileName_long {t : String} (h : NamedByDigest t) :
    tenantFileName t = digestName t := by
  rw [NamedByDigest] at h
  have hlength := length_encodeKeyComponent_cases t
  have hsuffix : ".json.tmp".utf8ByteSize = 9 := rfl
  simp only [tenantFileName, utf8ByteSize_of_ascii (ascii_encodeKeyComponent t), hsuffix]
  rw [if_neg (by omega)]

theorem toList_digestName (t : String) :
    (digestName t).toList = "sha256-".toList ++ (Sha256.hex t).toList := by
  rw [digestName, String.toList_append]

theorem safe_digestName (t : String) :
    ∀ c ∈ (digestName t).toList, isSafeComponentByte c.toNat = true := by
  intro c hc
  rw [toList_digestName, List.mem_append] at hc
  rcases hc with hc | hc
  · have hmark : "sha256-".toList.all (fun c => isSafeComponentByte c.toNat) = true := by
      decide +kernel
    exact List.all_eq_true.1 hmark c hc
  · have hdigits : "0123456789abcdef".toList.all (fun c => isSafeComponentByte c.toNat) = true := by
      decide +kernel
    exact List.all_eq_true.1 hdigits c (Sha256.hex_chars t c hc)

theorem length_digestName (t : String) : (digestName t).toList.length = 71 := by
  have hhex : (Sha256.hex t).toList.length = 64 := by
    rw [String.length_toList, Sha256.length_hex]
  rw [toList_digestName, List.length_append, hhex]
  rfl

theorem encode_digestName (t : String) : encodeKeyComponent (digestName t) = digestName t :=
  encodeKeyComponent_of_safe (safe_digestName t) (by rw [length_digestName]; omega)

theorem digestName_short (t : String) : ¬ NamedByDigest (digestName t) := by
  have hlength := length_encodeKeyComponent_cases (digestName t)
  rw [encode_digestName, length_digestName] at hlength
  rw [NamedByDigest]
  omega

theorem digestName_inj {a b : String} (h : digestName a = digestName b) :
    Sha256.hex a = Sha256.hex b := by
  have hlist := congrArg String.toList h
  rw [toList_digestName, toList_digestName] at hlist
  exact String.toList_injective (List.append_cancel_left hlist)

theorem tenantFileName_long_short {a b : String} (ha : NamedByDigest a) (hb : ¬ NamedByDigest b) :
    tenantFileName a = tenantFileName b ↔ b = digestName a := by
  rw [tenantFileName_long ha, tenantFileName_short hb]
  constructor
  · intro h
    apply encodeKeyComponent_inj
    rw [← h, encode_digestName]
  · rintro rfl
    rw [encode_digestName]

theorem tenantFileName_eq_iff {a b : String} (hsha : Sha256.hex a = Sha256.hex b → a = b) :
    tenantFileName a = tenantFileName b ↔ a = b ∨ Shadows a b ∨ Shadows b a := by
  by_cases ha : NamedByDigest a
  · by_cases hb : NamedByDigest b
    · -- both are named by their digests, and no digest name is long
      have hnot : ∀ t u, NamedByDigest u → ¬ Shadows t u := by
        rintro t u hu ⟨-, rfl⟩
        exact digestName_short t hu
      rw [tenantFileName_long ha, tenantFileName_long hb]
      constructor
      · intro h
        exact .inl (hsha (digestName_inj h))
      · rintro (rfl | h | h)
        · rfl
        · exact absurd h (hnot a b hb)
        · exact absurd h (hnot b a ha)
    · rw [tenantFileName_long_short ha hb]
      constructor
      · intro h
        exact .inr (.inl ⟨ha, h⟩)
      · rintro (rfl | h | h)
        · exact absurd ha hb
        · exact h.2
        · exact absurd h.1 hb
  · by_cases hb : NamedByDigest b
    · rw [eq_comm, tenantFileName_long_short hb ha]
      constructor
      · intro h
        exact .inr (.inr ⟨hb, h⟩)
      · rintro (rfl | h | h)
        · exact absurd hb ha
        · exact absurd h.1 ha
        · exact h.2
    · rw [tenantFileName_short ha, tenantFileName_short hb]
      constructor
      · intro h
        exact .inl (encodeKeyComponent_inj h)
      · rintro (rfl | h | h)
        · rfl
        · exact absurd h.1 ha
        · exact absurd h.1 hb

theorem storedApart_of_name_ne {root a b : String} (h : tenantFileName a ≠ tenantFileName b) :
    StoredApart root a b where
  name := h
  hot := by simpa [tenantFilePath] using h
  ledger := by simpa [ledgerFilePath] using h
  publications := by simpa [publicationDir] using h
  querySnapshots := by simpa [querySnapshotDir] using h

/-- **When the files of two tenants are kept apart.** Ids that do not collide
    under SHA-256 share no file and no directory exactly if neither of them is
    the digest name of the other, long one. -/
theorem tenants_storedApart_iff (root : String) {a b : String} (hne : a ≠ b)
    (hsha : Sha256.hex a = Sha256.hex b → a = b) :
    StoredApart root a b ↔ ¬ Shadows a b ∧ ¬ Shadows b a := by
  have hname := tenantFileName_eq_iff hsha
  constructor
  · intro h
    exact ⟨fun hs => h.name (hname.2 (.inr (.inl hs))), fun hs => h.name (hname.2 (.inr (.inr hs)))⟩
  · rintro ⟨hab, hba⟩
    apply storedApart_of_name_ne
    intro heq
    rcases hname.1 heq with h | h | h
    · exact hne h
    · exact hab h
    · exact hba h

theorem acme_beta_storedApart :
    "acme" ≠ "beta" ∧ (¬ Shadows "acme" "beta" ∧ ¬ Shadows "beta" "acme") ∧
      StoredApart "/data" "acme" "beta" := by
  have hne : "acme" ≠ "beta" := by decide
  have hacme : ¬ NamedByDigest "acme" := by
    rw [NamedByDigest]
    decide +kernel
  have hbeta : ¬ NamedByDigest "beta" := by
    rw [NamedByDigest]
    decide +kernel
  have hshadows : ¬ Shadows "acme" "beta" ∧ ¬ Shadows "beta" "acme" :=
    ⟨fun h => hacme h.1, fun h => hbeta h.1⟩
  exact ⟨hne, hshadows, (tenants_storedApart_iff "/data" hne
    (fun h => absurd h (by decide +kernel))).2 hshadows⟩

/-- An id of 83 percent signs. -/
def percentID : String := String.ofList (List.replicate 83 '%')

/-- Two accepted tenants with one hot document. -/
theorem digestName_shares_files :
    validTenantIDComponent "tenant id" percentID = .ok () ∧
      validTenantIDComponent "tenant id" (digestName percentID) = .ok () ∧
      percentID ≠ digestName percentID ∧
      tenantFileName percentID = tenantFileName (digestName percentID) ∧
      tenantFilePath "/data" percentID = tenantFilePath "/data" (digestName percentID) := by
  have hlong : NamedByDigest percentID := by
    rw [NamedByDigest]
    decide +kernel
  have hname : tenantFileName percentID = tenantFileName (digestName percentID) :=
    (tenantFileName_long_short hlong (digestName_short percentID)).2 rfl
  have hne : percentID ≠ digestName percentID := by
    intro heq
    rw [heq] at hlong
    exact digestName_short percentID hlong
  refine ⟨by decide +kernel, by decide +kernel, hne, hname, ?_⟩
  rw [tenantFilePath, tenantFilePath, hname]

end AuditGovernance
