import AuditGovernance.Domain.JsonLines
import AuditGovernance.Framework.SelfDelimiting
import AuditGovernance.Service.AggregateCheckpoints

/-! # What is signed and authenticated

    Three messages are put together from texts that callers choose: the payload
    under the signature of an aggregate checkpoint
    (`internal/service/aggregate_attestation.go`), the associated data of a
    sealed export, and the message under a bound search digest
    (`internal/security/fieldcrypto.go`). Two different records must never
    give one message (`framings_unambiguous`).

    A Go string is any sequence of bytes, so the messages are built from bytes
    here; `payload_describes` connects them to the texts of the model.
-/

namespace AuditGovernance.Framings

open LineLog SelfDelimiting

/-! ## Section 1: The payload of an aggregate checkpoint -/

/-- A slice: its length is an `int`. -/
abbrev Slice (α : Type) := { items : List α // items.length < 2 ^ 63 }

/-- An `int` or `int64`. -/
abbrev GoInt := { n : Int // -2 ^ 63 ≤ n ∧ n < 2 ^ 63 }

/-- The conversion to `uint64`. -/
def uint64 (n : GoInt) : Nat := (n.1 % 2 ^ 64).toNat

/-- A `CheckpointRef`, as bytes. -/
structure AttestedRef where
  streamID : Slice UInt8
  checkpointID : Slice UInt8
  sequence : GoInt
  merkleRoot : Slice UInt8
deriving DecidableEq

/-- The fields of an `AggregateCheckpoint` that are attested, as bytes. -/
structure Attested where
  attestationVersion : GoInt
  tenantID : Slice UInt8
  algorithm : Slice UInt8
  streamCount : GoInt
  streamRoots : Slice (Slice UInt8)
  checkpointRefs : Slice AttestedRef
deriving DecidableEq

/-- `writeAggregateField`. -/
def writeField (value : Slice UInt8) : Bytes := writeAggregateUint value.1.length ++ value.1

/-- The body of the loop over the references. -/
def writeRef (ref : AttestedRef) : Bytes :=
  writeField ref.streamID ++ writeField ref.checkpointID ++ writeAggregateUint (uint64 ref.sequence) ++
    writeField ref.merkleRoot

/-- What is written, in the order of the source. -/
def Attested.written (a : Attested) : Bytes :=
  writeAggregateField "snaplink.aggregate-checkpoint" ++
    writeAggregateUint (uint64 a.attestationVersion) ++ writeField a.tenantID ++
    writeField a.algorithm ++ writeAggregateUint (uint64 a.streamCount) ++
    writeAggregateUint a.streamRoots.1.length ++ a.streamRoots.1.flatMap writeField ++
    writeAggregateUint a.checkpointRefs.1.length ++ a.checkpointRefs.1.flatMap writeRef

/-- `aggregateAttestationPayload`. -/
def Attested.payload (a : Attested) : Except Err Bytes :=
  if a.attestationVersion.1 < 0 ∨ a.streamCount.1 < 0 then
    .error (.invalid "negative aggregate attestation version or stream count")
  else if ∃ ref ∈ a.checkpointRefs.1, ref.sequence.1 ≤ 0 then
    .error (.invalid "aggregate checkpoint sequence must be positive")
  else .ok a.written

/-! ### The parts can be told apart -/

theorem writeAggregateUint_inj {m n : Nat} (hm : m < 2 ^ 64) (hn : n < 2 ^ 64)
    (h : writeAggregateUint m = writeAggregateUint n) : m = n := by
  have hbyte : ∀ x y : Nat, UInt8.ofNat x = UInt8.ofNat y → x % 256 = y % 256 := by
    intro x y hxy
    have hnat := congrArg UInt8.toNat hxy
    rwa [UInt8.toNat_ofNat', UInt8.toNat_ofNat'] at hnat
  unfold writeAggregateUint at h
  simp only [List.cons.injEq, and_true] at h
  obtain ⟨h7, h6, h5, h4, h3, h2, h1, h0⟩ := h
  have e7 := hbyte _ _ h7
  have e6 := hbyte _ _ h6
  have e5 := hbyte _ _ h5
  have e4 := hbyte _ _ h4
  have e3 := hbyte _ _ h3
  have e2 := hbyte _ _ h2
  have e1 := hbyte _ _ h1
  have e0 := hbyte _ _ h0
  omega

theorem delimits_uint {α : Type} {f : α → Nat} (hf : Function.Injective f)
    (hlt : ∀ a, f a < 2 ^ 64) : Delimits (fun a => writeAggregateUint (f a)) := by
  apply delimits_of_length (n := 8)
  · intro a b h
    exact hf (writeAggregateUint_inj (hlt a) (hlt b) h)
  · intro a
    rfl

theorem uint64_injective : Function.Injective uint64 := by
  rintro ⟨m, hm⟩ ⟨n, hn⟩ h
  unfold uint64 at h
  dsimp only at h
  apply Subtype.ext
  show m = n
  omega

theorem delimits_int : Delimits (fun n : GoInt => writeAggregateUint (uint64 n)) := by
  apply delimits_uint uint64_injective
  intro n
  unfold uint64
  omega

/-- The length of a slice. -/
def sizeOf {α : Type} (items : Slice α) : { n : Nat // n < 2 ^ 63 } := ⟨items.1.length, items.2⟩

theorem delimits_size : Delimits (fun n : { n : Nat // n < 2 ^ 63 } => writeAggregateUint n.1) := by
  apply delimits_uint Subtype.val_injective
  intro n
  have hn := n.2
  omega

theorem delimits_slice {α : Type} {body : List α → Bytes} (h : DelimitsSized List.length body) :
    Delimits (fun items : Slice α => writeAggregateUint items.1.length ++ body items.1) := by
  have hsized : DelimitsSized sizeOf (fun items : Slice α => body items.1) :=
    h.comp Subtype.val_injective (fun _ _ hsize => congrArg Subtype.val hsize)
  exact hsized.delimits delimits_size

theorem delimits_field : Delimits writeField := delimits_slice delimitsSized_word

theorem delimits_ref : Delimits writeRef := by
  have hparts := delimits_field.pair (delimits_field.pair (delimits_int.pair delimits_field))
  have hinj : Function.Injective (fun ref : AttestedRef =>
      (ref.streamID, ref.checkpointID, ref.sequence, ref.merkleRoot)) := by
    rintro ⟨a1, a2, a3, a4⟩ ⟨b1, b2, b3, b4⟩ h
    simp only [Prod.mk.injEq] at h
    obtain ⟨rfl, rfl, rfl, rfl⟩ := h
    rfl
  have hwrite := hparts.comp hinj
  intro a b s t h
  apply hwrite a b s t
  simpa only [writeRef, List.append_assoc] using h

/-- **The attested fields** can be told from what is written. -/
theorem delimits_written : Delimits Attested.written := by
  have hroots := delimits_slice delimits_field.items
  have hrefs := delimits_slice delimits_ref.items
  have hparts := (delimits_int.pair (delimits_field.pair (delimits_field.pair
    (delimits_int.pair (hroots.pair hrefs))))).tagged
      (writeAggregateField "snaplink.aggregate-checkpoint")
  have hinj : Function.Injective (fun a : Attested => (a.attestationVersion, a.tenantID, a.algorithm,
      a.streamCount, a.streamRoots, a.checkpointRefs)) := by
    rintro ⟨a1, a2, a3, a4, a5, a6⟩ ⟨b1, b2, b3, b4, b5, b6⟩ h
    simp only [Prod.mk.injEq] at h
    obtain ⟨rfl, rfl, rfl, rfl, rfl, rfl⟩ := h
    rfl
  have hwrite := hparts.comp hinj
  intro a b s t h
  apply hwrite a b s t
  simpa only [Attested.written, List.append_assoc] using h

theorem payload_ok {a : Attested} {payload : Bytes} (h : a.payload = .ok payload) :
    payload = a.written := by
  unfold Attested.payload at h
  split at h
  · cases h
  split at h
  · cases h
  · exact (Except.ok.inj h).symm

theorem payload_inj {a b : Attested} {payload : Bytes} (ha : a.payload = .ok payload)
    (hb : b.payload = .ok payload) : a = b :=
  delimits_written.injective ((payload_ok ha).symm.trans (payload_ok hb))

/-! ### Texts -/

/-- A reference of the model, as bytes. -/
def AttestedRef.Describes (a : AttestedRef) (ref : CheckpointRef) : Prop :=
  a.streamID.1 = Base64.utf8 ref.streamID.toList ∧
    a.checkpointID.1 = Base64.utf8 ref.checkpointID.toList ∧
    a.sequence.1 = ref.sequence ∧ a.merkleRoot.1 = Base64.utf8 ref.merkleRoot.toList

/-- The attested fields are those of a record of the model. -/
structure Attested.Describes (a : Attested) (aggregate : AggregateCheckpoint) : Prop where
  version : a.attestationVersion.1 = aggregate.attestationVersion
  tenant : a.tenantID.1 = Base64.utf8 aggregate.tenantID.toList
  algorithm : a.algorithm.1 = Base64.utf8 aggregate.algorithm.toList
  count : a.streamCount.1 = aggregate.streamCount
  roots : List.Forall₂ (fun bytes root => bytes.1 = Base64.utf8 root.toList) a.streamRoots.1
    aggregate.streamRoots
  refs : List.Forall₂ AttestedRef.Describes a.checkpointRefs.1 aggregate.checkpointRefs

theorem uint64_of_nonneg {n : GoInt} (h : 0 ≤ n.1) : uint64 n = n.1.toNat := by
  have hn := n.2
  unfold uint64
  omega

theorem flatMap_forall₂ {α β : Type} {R : α → β → Prop} {f : α → Bytes} {g : β → Bytes}
    {as : List α} {bs : List β} (h : List.Forall₂ R as bs)
    (hfg : ∀ a b, a ∈ as → R a b → f a = g b) : as.flatMap f = bs.flatMap g := by
  induction h with
  | nil => rfl
  | @cons a b as bs hab _ ih =>
    rw [List.flatMap_cons, List.flatMap_cons, hfg a b List.mem_cons_self hab,
      ih (fun a' b' ha' => hfg a' b' (List.mem_cons_of_mem _ ha'))]

theorem writeField_eq {bytes : Slice UInt8} {text : String}
    (h : bytes.1 = Base64.utf8 text.toList) : writeField bytes = writeAggregateField text := by
  unfold writeField writeAggregateField
  rw [h]

theorem writeRef_eq {a : AttestedRef} {ref : CheckpointRef} (h : a.Describes ref)
    (hpos : 0 < a.sequence.1) : writeRef a = writeAggregateRef ref := by
  obtain ⟨hstream, hcheckpoint, hsequence, hroot⟩ := h
  unfold writeRef writeAggregateRef
  rw [writeField_eq hstream, writeField_eq hcheckpoint, writeField_eq hroot,
    uint64_of_nonneg (Int.le_of_lt hpos), hsequence]

theorem exists_forall₂ {α β : Type} {R : α → β → Prop} {p : α → Prop} {q : β → Prop}
    {as : List α} {bs : List β} (h : List.Forall₂ R as bs) (hpq : ∀ a b, R a b → (p a ↔ q b)) :
    (∃ a ∈ as, p a) ↔ ∃ b ∈ bs, q b := by
  induction h with
  | nil => simp
  | cons hab _ ih =>
    simp only [List.exists_mem_cons_iff]
    rw [hpq _ _ hab, ih]

/-- **The payload of the model** is the payload of its bytes. -/
theorem payload_describes {a : Attested} {aggregate : AggregateCheckpoint}
    (h : a.Describes aggregate) : a.payload = aggregateAttestationPayload aggregate := by
  have hbad : (∃ ref ∈ a.checkpointRefs.1, ref.sequence.1 ≤ 0) ↔
      ∃ ref ∈ aggregate.checkpointRefs, ref.sequence ≤ 0 :=
    exists_forall₂ h.refs (fun x y hxy => by rw [hxy.2.2.1])
  have hsigns : (a.attestationVersion.1 < 0 ∨ a.streamCount.1 < 0) ↔
      (aggregate.attestationVersion < 0 ∨ aggregate.streamCount < 0) := by
    rw [h.version, h.count]
  unfold Attested.payload aggregateAttestationPayload
  by_cases hneg : a.attestationVersion.1 < 0 ∨ a.streamCount.1 < 0
  · rw [if_pos hneg, if_pos (hsigns.1 hneg)]
  rw [if_neg hneg, if_neg (mt hsigns.2 hneg)]
  by_cases hseq : ∃ ref ∈ a.checkpointRefs.1, ref.sequence.1 ≤ 0
  · rw [if_pos hseq, if_pos (hbad.1 hseq)]
  rw [if_neg hseq, if_neg (mt hbad.2 hseq)]
  -- all numbers are positive now, so they are written as they are
  obtain ⟨hversion, hcount⟩ := not_or.1 hneg
  have hroots : a.streamRoots.1.flatMap writeField =
      aggregate.streamRoots.flatMap writeAggregateField :=
    flatMap_forall₂ h.roots (fun _ _ _ heq => writeField_eq heq)
  have hrefs : a.checkpointRefs.1.flatMap writeRef =
      aggregate.checkpointRefs.flatMap writeAggregateRef := by
    apply flatMap_forall₂ h.refs
    intro ref _ hmem hdescribes
    exact writeRef_eq hdescribes (not_le.1 (fun hle => hseq ⟨ref, hmem, hle⟩))
  unfold Attested.written
  rw [writeField_eq h.tenant, writeField_eq h.algorithm, uint64_of_nonneg (not_lt.1 hversion),
    uint64_of_nonneg (not_lt.1 hcount), h.version, h.count, h.roots.length_eq, h.refs.length_eq,
    hroots, hrefs]

/-! ## Section 2: The binding of an export -/

/-- `strconv.Itoa` of a length. -/
def itoa (n : Nat) : Bytes := bytesOf (Nat.repr n)

/-- `ExportBinding`. -/
def exportBinding (tenantID jobID : Bytes) : Bytes :=
  bytesOf "export:v2:" ++ itoa tenantID.length ++ bytesOf ":" ++ tenantID ++ bytesOf "|" ++
    itoa jobID.length ++ bytesOf ":" ++ jobID

/-- The byte of a colon. -/
def colon : UInt8 := 58

theorem colon_notMem_itoa (n : Nat) : colon ∉ itoa n := by
  intro hmem
  unfold itoa at hmem
  rw [← String.ofList_toList (s := Nat.repr n), bytesOf_ofList] at hmem
  obtain ⟨c, hc, hin⟩ := List.mem_flatMap.1 hmem
  have hdigit : c.isDigit = true := by
    rw [Nat.toList_repr] at hc
    exact Nat.isDigit_of_mem_toDigits (by decide) (by decide) hc
  obtain ⟨hlow, hhigh⟩ : 48 ≤ c.val.toNat ∧ c.val.toNat ≤ 57 := by
    simp only [Char.isDigit, Bool.and_eq_true, decide_eq_true_eq, ge_iff_le] at hdigit
    exact hdigit
  -- a digit is one byte, its own number
  unfold String.utf8EncodeChar at hin
  dsimp only at hin
  rw [if_pos (by omega)] at hin
  have hnat := congrArg UInt8.toNat (List.mem_singleton.1 hin)
  rw [UInt8.toNat_ofNat', Nat.mod_eq_of_lt (by omega)] at hnat
  have hcolon : colon.toNat = 58 := rfl
  omega

theorem itoa_injective : Function.Injective itoa := by
  intro m n h
  exact Nat.repr_injective (bytesOf_inj h)

theorem delimits_counted : Delimits (fun bytes : Bytes => (itoa bytes.length ++ [colon]) ++ bytes) :=
  delimitsSized_word.delimits (delimits_terminated itoa_injective colon_notMem_itoa)

theorem exportBinding_inj {tenantID jobID tenantID' jobID' : Bytes}
    (h : exportBinding tenantID jobID = exportBinding tenantID' jobID') :
    tenantID = tenantID' ∧ jobID = jobID' := by
  have hparts := (delimits_counted.pair (delimits_counted.tagged (bytesOf "|"))).tagged
    (bytesOf "export:v2:")
  have hcolon : bytesOf ":" = [colon] := by decide
  have hpair : (tenantID, jobID) = (tenantID', jobID') := by
    apply hparts.injective
    simpa only [exportBinding, hcolon, List.append_assoc] using h
  exact Prod.mk.inj hpair

/-! ## Section 3: The message of a search digest -/

/-- What `SearchDigestBound` authenticates: the JSON text of the value, the
    tenant and the field, with a NUL byte before each of the last two. -/
def searchDigestMessage (plain : String) (tenantID field : Bytes) : Bytes :=
  bytesOf plain ++ [0] ++ tenantID ++ [0] ++ field

/-- The message of the model is the message of its bytes. -/
theorem searchDigestMessage_eq (plain tenantID field : String) :
    bytesOf (plain ++ "\x00" ++ tenantID ++ "\x00" ++ field) =
      searchDigestMessage plain (bytesOf tenantID) (bytesOf field) := by
  have hnul : bytesOf "\x00" = [0] := by decide
  rw [bytesOf_append, bytesOf_append, bytesOf_append, bytesOf_append, hnul]
  rfl

theorem nul_notMem_marshal {value : Json} {plain : String} (h : value.marshal = .ok plain) :
    0 ∉ bytesOf plain := by
  unfold Json.marshal at h
  split at h
  case isFalse => cases h
  case isTrue hvalid =>
    rw [← Except.ok.inj h]
    intro hmem
    exact absurd (le_of_mem_toText hvalid hmem) (by decide)

theorem searchDigestMessage_inj {plain plain' : String} {tenantID tenantID' field field' : Bytes}
    (hplain : 0 ∉ bytesOf plain) (hplain' : 0 ∉ bytesOf plain')
    (htenant : 0 ∉ tenantID) (htenant' : 0 ∉ tenantID')
    (h : searchDigestMessage plain tenantID field = searchDigestMessage plain' tenantID' field') :
    plain = plain' ∧ tenantID = tenantID' ∧ field = field' := by
  -- a word without NUL, and the NUL that ends it
  have hword : Delimits (fun word : { bytes : Bytes // 0 ∉ bytes } => word.1 ++ [0]) :=
    delimits_terminated Subtype.val_injective (fun word => word.2)
  have hsplit : bytesOf plain ++ [0] ++ (tenantID ++ [0] ++ field) =
      bytesOf plain' ++ [0] ++ (tenantID' ++ [0] ++ field') := by
    simpa only [searchDigestMessage, List.append_assoc] using h
  obtain ⟨hfirst, hrest⟩ := hword ⟨_, hplain⟩ ⟨_, hplain'⟩ _ _ hsplit
  obtain ⟨hsecond, hfield⟩ := hword ⟨_, htenant⟩ ⟨_, htenant'⟩ _ _ hrest
  exact ⟨bytesOf_inj (congrArg Subtype.val hfirst), congrArg Subtype.val hsecond, hfield⟩

/-! ## Section 4: All three -/

/-- **The framings.** Two aggregates with one payload agree in every attested
    field; an export binding determines its tenant and its job; and the message
    of a search digest determines the JSON text of the value, the tenant and the
    field, for tenants without a NUL byte. -/
theorem framings_unambiguous :
    (∀ (a b : Attested) (payload : Bytes), a.payload = .ok payload → b.payload = .ok payload →
      a = b) ∧
    (∀ tenantID jobID tenantID' jobID' : Bytes,
      exportBinding tenantID jobID = exportBinding tenantID' jobID' →
        tenantID = tenantID' ∧ jobID = jobID') ∧
    (∀ (value value' : Json) (plain plain' : String) (tenantID tenantID' field field' : Bytes),
      value.marshal = .ok plain → value'.marshal = .ok plain' → 0 ∉ tenantID → 0 ∉ tenantID' →
      searchDigestMessage plain tenantID field = searchDigestMessage plain' tenantID' field' →
        plain = plain' ∧ tenantID = tenantID' ∧ field = field') := by
  refine ⟨fun _ _ _ => payload_inj, fun _ _ _ _ => exportBinding_inj, ?_⟩
  intro value value' plain plain' tenantID tenantID' field field' hvalue hvalue' htenant htenant' h
  exact searchDigestMessage_inj (nul_notMem_marshal hvalue) (nul_notMem_marshal hvalue')
    htenant htenant' h

/-- An aggregate over one stream. -/
def oneStream : Attested where
  attestationVersion := ⟨2, by decide⟩
  tenantID := ⟨[97], by decide⟩
  algorithm := ⟨[104], by decide⟩
  streamCount := ⟨1, by decide⟩
  streamRoots := ⟨[⟨[114], by decide⟩], by decide⟩
  checkpointRefs := ⟨[⟨⟨[115], by decide⟩, ⟨[99], by decide⟩, ⟨1, by decide⟩, ⟨[114], by decide⟩⟩],
    by decide⟩

/-- It is accepted, and no other aggregate has its payload. -/
theorem oneStream_payload :
    oneStream.payload = .ok oneStream.written ∧
    ∀ b : Attested, b.payload = .ok oneStream.written → b = oneStream := by
  have haccepted : oneStream.payload = .ok oneStream.written := by
    unfold Attested.payload
    rw [if_neg (by decide), if_neg (by decide)]
  exact ⟨haccepted, fun b hb => framings_unambiguous.1 b oneStream _ hb haccepted⟩

end AuditGovernance.Framings
