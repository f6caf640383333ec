import AuditGovernance.Framework.Base64
import AuditGovernance.Framework.Paging
import AuditGovernance.Framework.Ranging
import AuditGovernance.Service.Environment
import AuditGovernance.Service.Recovery
import AuditGovernance.Service.Schemas

/-! # Aggregate checkpoints

    `CreateAggregateCheckpoint` (`internal/service/integrity.go`,
    `aggregate_attestation.go`, `aggregate_checkpoint.go`): one signed record
    over the newest checkpoint of every stream of a tenant. A record that
    attests the same as the tenant's last one is not appended, and a tenant
    keeps its newest records up to a cap.

    `newest` says what trimming leaves of one tenant, and `AggregateRun`
    collects the records that a run of calls appended
    (`aggregate_history_exact`). Loops over the dictionary of checkpoints
    visit it in any order, and `sort.Slice` is any sorting routine.
-/

namespace AuditGovernance

open FiniteMap Paging

/-! ## Section 1: The newest checkpoint of a stream -/

/-- The comparison of `latestCheckpoint`. -/
def newerCheckpoint (a b : Checkpoint) : Bool :=
  b.sequence < a.sequence ∨ (a.sequence = b.sequence ∧ b.createdAt < a.createdAt) ∨
    (a.sequence = b.sequence ∧ a.createdAt = b.createdAt ∧ b.id < a.id)

/-- `latestCheckpoint`. -/
def latestCheckpoint (checkpoints : List Checkpoint) : Option Checkpoint :=
  bestOf newerCheckpoint checkpoints

/-- Sequence, creation time and id, newest first. -/
def Checkpoint.rank (c : Checkpoint) : (Int ×ₗ (Int ×ₗ String))ᵒᵈ :=
  OrderDual.toDual (toLex (c.sequence, toLex (c.createdAt, c.id)))

theorem newerCheckpoint_eq (a b : Checkpoint) :
    newerCheckpoint a b = decide (a.rank < b.rank) := by
  rw [Bool.eq_iff_iff, decide_eq_true_eq]
  show _ ↔ toLex (b.sequence, toLex (b.createdAt, b.id)) <
    toLex (a.sequence, toLex (a.createdAt, a.id))
  rw [Prod.Lex.toLex_lt_toLex, Prod.Lex.toLex_lt_toLex]
  unfold newerCheckpoint
  rw [decide_eq_true_eq]
  constructor
  · rintro (hlt | ⟨heq, hlt⟩ | ⟨heq, heq', hlt⟩)
    · exact .inl hlt
    · exact .inr ⟨heq.symm, .inl hlt⟩
    · exact .inr ⟨heq.symm, .inr ⟨heq'.symm, hlt⟩⟩
  · rintro (hlt | ⟨heq, hlt | ⟨heq', hlt⟩⟩)
    · exact .inl hlt
    · exact .inr (.inl ⟨Eq.symm heq, hlt⟩)
    · exact .inr (.inr ⟨Eq.symm heq, Eq.symm heq', hlt⟩)

theorem Checkpoint.id_of_rank {a b : Checkpoint} (h : a.rank = b.rank) : a.id = b.id :=
  congrArg (fun p => (ofLex (ofLex p).2).2) (OrderDual.toDual_inj.1 h)

/-! ## Section 2: References -/

/-- The reference to a checkpoint. -/
def Checkpoint.ref (c : Checkpoint) : CheckpointRef :=
  { streamID := c.streamID, checkpointID := c.id, sequence := c.sequence
    merkleRoot := c.merkleRoot }

/-- One round of the loop in `aggregateCheckpointRefs`. -/
def checkpointRefOf (tenantID key : String) (checkpoints : List Checkpoint) :
    Except Err (Option CheckpointRef) :=
  match latestCheckpoint checkpoints with
  | none => .ok none
  | some checkpoint =>
    match splitTenantKey key with
    | none => .ok none
    | some (owner, streamID) =>
      if owner ≠ tenantID then .ok none
      else if checkpoint.tenantID ≠ tenantID ∨ checkpoint.streamID ≠ streamID ∨
          checkpoint.id = "" ∨ checkpoint.merkleRoot = "" ∨ checkpoint.sequence ≤ 0 then
        .error (.invalid ("malformed checkpoint for stream " ++ streamID))
      else .ok (some checkpoint.ref)

/-- The loop. -/
def collectRefs (tenantID : String) :
    List (String × List Checkpoint) → Except Err (List CheckpointRef)
  | [] => .ok []
  | (key, checkpoints) :: rest =>
    match checkpointRefOf tenantID key checkpoints with
    | .error err => .error err
    | .ok ref => (collectRefs tenantID rest).map fun refs => ref.toList ++ refs

/-- The comparison of `sortCheckpointRefs`. -/
def compareRefs (a b : CheckpointRef) : Bool :=
  if a.streamID ≠ b.streamID then a.streamID < b.streamID
  else if a.checkpointID ≠ b.checkpointID then a.checkpointID < b.checkpointID
  else if a.sequence ≠ b.sequence then a.sequence < b.sequence
  else a.merkleRoot < b.merkleRoot

/-- `aggregateCheckpointRefs`. -/
def aggregateCheckpointRefs (order : RangeOrder) (sort : SliceSort) (data : Snapshot)
    (tenantID : String) : Except Err (List CheckpointRef) :=
  (collectRefs tenantID (order.entries data.checkpoints)).map (sort.run compareRefs)

/-! ## Section 3: The attestation -/

def aggregateAttestationVersion : Int := 2

/-- `writeAggregateUint`: eight bytes, the highest first. -/
def writeAggregateUint (value : Nat) : List UInt8 :=
  [UInt8.ofNat (value / 2 ^ 56), UInt8.ofNat (value / 2 ^ 48), UInt8.ofNat (value / 2 ^ 40),
    UInt8.ofNat (value / 2 ^ 32), UInt8.ofNat (value / 2 ^ 24), UInt8.ofNat (value / 2 ^ 16),
    UInt8.ofNat (value / 2 ^ 8), UInt8.ofNat value]

/-- `writeAggregateField`. -/
def writeAggregateField (value : String) : List UInt8 :=
  writeAggregateUint (Base64.utf8 value.toList).length ++ Base64.utf8 value.toList

/-- A reference in the payload. -/
def writeAggregateRef (ref : CheckpointRef) : List UInt8 :=
  writeAggregateField ref.streamID ++ writeAggregateField ref.checkpointID ++
    writeAggregateUint ref.sequence.toNat ++ writeAggregateField ref.merkleRoot

/-- `aggregateAttestationPayload`. -/
def aggregateAttestationPayload (aggregate : AggregateCheckpoint) : Except Err (List UInt8) :=
  if aggregate.attestationVersion < 0 ∨ aggregate.streamCount < 0 then
    .error (.invalid "negative aggregate attestation version or stream count")
  else if ∃ ref ∈ aggregate.checkpointRefs, ref.sequence ≤ 0 then
    .error (.invalid "aggregate checkpoint sequence must be positive")
  else
    .ok (writeAggregateField "snaplink.aggregate-checkpoint" ++
      writeAggregateUint aggregate.attestationVersion.toNat ++
      writeAggregateField aggregate.tenantID ++ writeAggregateField aggregate.algorithm ++
      writeAggregateUint aggregate.streamCount.toNat ++
      writeAggregateUint aggregate.streamRoots.length ++
      aggregate.streamRoots.flatMap writeAggregateField ++
      writeAggregateUint aggregate.checkpointRefs.length ++
      aggregate.checkpointRefs.flatMap writeAggregateRef)

/-- `sameAggregateAttestation`. -/
def sameAggregateAttestation (left right : AggregateCheckpoint) : Bool :=
  left.tenantID = right.tenantID ∧ left.attestationVersion = right.attestationVersion ∧
    left.streamCount = right.streamCount ∧ left.root = right.root ∧
    left.signature = right.signature ∧ left.algorithm = right.algorithm ∧
    left.streamRoots = right.streamRoots ∧ left.checkpointRefs = right.checkpointRefs

theorem sameAggregateAttestation_iff {left right : AggregateCheckpoint} :
    sameAggregateAttestation left right = true ↔
      { left with id := right.id, createdAt := right.createdAt } = right := by
  unfold sameAggregateAttestation
  rw [decide_eq_true_eq]
  constructor
  · rintro ⟨h1, h2, h3, h4, h5, h6, h7, h8⟩
    obtain ⟨id, tenantID, streamCount, root, signature, algorithm, createdAt, streamRoots,
      attestationVersion, checkpointRefs⟩ := right
    dsimp only at h1 h2 h3 h4 h5 h6 h7 h8
    rw [h1, h2, h3, h4, h5, h6, h7, h8]
  · intro heq
    rw [← heq]
    exact ⟨rfl, rfl, rfl, rfl, rfl, rfl, rfl, rfl⟩

/-! ## Section 4: The call -/

/-- The collecting loop of `trimAggregateCheckpoints`, newest first. -/
def keepNewest (tenantID : String) : Nat → List AggregateCheckpoint → List AggregateCheckpoint
  | _, [] => []
  | keep, item :: rest =>
    if item.tenantID = tenantID then
      match keep with
      | 0 => keepNewest tenantID 0 rest
      | left + 1 => item :: keepNewest tenantID left rest
    else item :: keepNewest tenantID keep rest

/-- `trimAggregateCheckpoints`. -/
def trimAggregateCheckpoints (items : List AggregateCheckpoint) (tenantID : String) (n : Nat) :
    List AggregateCheckpoint × Bool :=
  if items.countP (fun item => item.tenantID = tenantID) ≤ n then (items, false)
  else ((keepNewest tenantID n items.reverse).reverse, true)

/-- `lastAggregateCheckpoint`. -/
def lastAggregateCheckpoint (items : List AggregateCheckpoint) (tenantID : String) :
    Option AggregateCheckpoint :=
  items.reverse.find? (fun item => item.tenantID = tenantID)

/-- `retentionCap`. -/
def retentionCap (configured : Int) : Nat := if 1 ≤ configured then configured.toNat else 1000

/-- What a service process is configured with. -/
structure Attester where
  env : Env
  /-- `Signer.Sign`, of bytes. -/
  sign : List UInt8 → Except Err String
  /-- `Config.AggregateCheckpointRetention`. -/
  retention : Int

def Attester.cap (a : Attester) : Nat := retentionCap a.retention

/-- The clock, the fresh id and the orders of a call. -/
structure AggregateCall where
  tenantID : String
  now : Time
  id : String
  order : RangeOrder
  sort : SliceSort

/-- The unsigned record over these references. -/
def Attester.candidate (a : Attester) (call : AggregateCall) (refs : List CheckpointRef) :
    AggregateCheckpoint :=
  let roots := refs.map CheckpointRef.merkleRoot
  { id := call.id, tenantID := call.tenantID, streamCount := refs.length
    root := a.env.merkleRoot roots, algorithm := a.env.algorithm, createdAt := call.now
    streamRoots := roots, attestationVersion := aggregateAttestationVersion
    checkpointRefs := refs }

/-- The signed record. -/
def Attester.attest (a : Attester) (call : AggregateCall) (refs : List CheckpointRef) :
    Except Err AggregateCheckpoint :=
  let candidate := a.candidate call refs
  match aggregateAttestationPayload candidate with
  | .error err => .error err
  | .ok payload =>
    match a.sign payload with
    | .error err => .error (.wrap "sign aggregate checkpoint" err)
    | .ok signature => .ok { candidate with signature := signature }

/-- What a call commits, and the record it appended, if it did. -/
structure AggregateOutcome where
  data : Snapshot
  appended : Option AggregateCheckpoint

/-- `CreateAggregateCheckpoint`. Nothing is saved when nothing changed, which
    leaves the snapshot as it is. -/
def Attester.createAggregateCheckpoint (a : Attester) (call : AggregateCall) (data : Snapshot) :
    Except Err AggregateOutcome :=
  match requireTenantScope call.tenantID with
  | .error err => .error err
  | .ok () =>
    match aggregateCheckpointRefs call.order call.sort data call.tenantID with
    | .error err => .error err
    | .ok [] => .ok ⟨data, none⟩
    | .ok refs =>
      match a.attest call refs with
      | .error err => .error err
      | .ok candidate =>
        match lastAggregateCheckpoint data.aggregateCheckpoints call.tenantID with
        | some last =>
          if sameAggregateAttestation last candidate then
            let trimmed := trimAggregateCheckpoints data.aggregateCheckpoints call.tenantID a.cap
            .ok ⟨if trimmed.2 then { data with aggregateCheckpoints := trimmed.1 } else data, none⟩
          else .ok (appendAggregate a call data candidate)
        | none => .ok (appendAggregate a call data candidate)
where
  /-- The append and the trim after it. -/
  appendAggregate (a : Attester) (call : AggregateCall) (data : Snapshot)
      (candidate : AggregateCheckpoint) : AggregateOutcome :=
    ⟨{ data with aggregateCheckpoints :=
        (trimAggregateCheckpoints (data.aggregateCheckpoints ++ [candidate]) call.tenantID
          a.cap).1 }, some candidate⟩

/-! ## Section 5: What trimming leaves -/

/-- The records of a tenant, in append order. -/
def recordsOf (tenantID : String) (items : List AggregateCheckpoint) : List AggregateCheckpoint :=
  items.filter (fun item => item.tenantID = tenantID)

/-- The records of the other tenants, in append order. -/
def recordsBeside (tenantID : String) (items : List AggregateCheckpoint) :
    List AggregateCheckpoint :=
  items.filter (fun item => item.tenantID ≠ tenantID)

theorem recordsOf_cons (tenantID : String) (item : AggregateCheckpoint)
    (rest : List AggregateCheckpoint) : recordsOf tenantID (item :: rest) =
      if item.tenantID = tenantID then item :: recordsOf tenantID rest
      else recordsOf tenantID rest := by
  unfold recordsOf
  rw [List.filter_cons]
  simp only [decide_eq_true_eq]

theorem recordsBeside_cons (tenantID : String) (item : AggregateCheckpoint)
    (rest : List AggregateCheckpoint) : recordsBeside tenantID (item :: rest) =
      if item.tenantID = tenantID then recordsBeside tenantID rest
      else item :: recordsBeside tenantID rest := by
  unfold recordsBeside
  rw [List.filter_cons]
  simp only [decide_eq_true_eq, ite_not]

/-- The last `n` of a list. -/
def newest {α : Type} (n : Nat) (items : List α) : List α := items.drop (items.length - n)

section Newest

variable {α : Type} {n : Nat}

theorem length_newest (items : List α) : (newest n items).length ≤ n := by
  unfold newest
  rw [List.length_drop]
  omega

theorem newest_of_length_le {items : List α} (h : items.length ≤ n) : newest n items = items := by
  unfold newest
  rw [Nat.sub_eq_zero_of_le h, List.drop_zero]

theorem newest_reverse (items : List α) : newest n items = (items.reverse.take n).reverse := by
  unfold newest
  rw [List.take_reverse, List.reverse_reverse]

theorem newest_newest_append (items more : List α) :
    newest n (newest n items ++ more) = newest n (items ++ more) := by
  unfold newest
  have hlength : (items.drop (items.length - n)).length = items.length - (items.length - n) :=
    List.length_drop
  rw [List.length_append, hlength, List.length_append]
  by_cases hshort : items.length ≤ n
  · rw [Nat.sub_eq_zero_of_le hshort]
    simp
  · have hsub : items.length - (items.length - n) = n := by omega
    rw [hsub]
    rw [List.drop_append, List.drop_drop, List.drop_append, hlength]
    congr 1
    · congr 1
      omega
    · congr 1
      omega

theorem getLast?_newest (hn : 1 ≤ n) (items : List α) :
    (newest n items).getLast? = items.getLast? := by
  rw [newest_reverse, List.getLast?_reverse, List.head?_take, if_neg (by omega),
    List.head?_reverse]

end Newest

section Trimming

variable {tenantID : String} {n : Nat}

theorem keepNewest_records (keep : Nat) (items : List AggregateCheckpoint) :
    recordsOf tenantID (keepNewest tenantID keep items) = (recordsOf tenantID items).take keep ∧
      recordsBeside tenantID (keepNewest tenantID keep items) = recordsBeside tenantID items := by
  induction items generalizing keep with
  | nil => exact ⟨(List.take_nil).symm, rfl⟩
  | cons item rest ih =>
    rw [keepNewest.eq_def]
    dsimp only
    by_cases hitem : item.tenantID = tenantID
    · rw [if_pos hitem]
      cases keep with
      | zero =>
        obtain ⟨hof, hbeside⟩ := ih 0
        simp [recordsOf_cons, recordsBeside_cons, hitem, hof, hbeside]
      | succ left =>
        obtain ⟨hof, hbeside⟩ := ih left
        simp [recordsOf_cons, recordsBeside_cons, hitem, hof, hbeside]
    · rw [if_neg hitem]
      obtain ⟨hof, hbeside⟩ := ih keep
      simp [recordsOf_cons, recordsBeside_cons, hitem, hof, hbeside]

theorem trim_records (items : List AggregateCheckpoint) :
    recordsOf tenantID (trimAggregateCheckpoints items tenantID n).1 =
        newest n (recordsOf tenantID items) ∧
      recordsBeside tenantID (trimAggregateCheckpoints items tenantID n).1 =
        recordsBeside tenantID items := by
  unfold trimAggregateCheckpoints
  split_ifs with hcount
  · refine ⟨(newest_of_length_le ?_).symm, rfl⟩
    rw [recordsOf, ← List.countP_eq_length_filter]
    exact hcount
  · obtain ⟨hof, hbeside⟩ := @keepNewest_records tenantID n items.reverse
    constructor
    · have hreverse : recordsOf tenantID (keepNewest tenantID n items.reverse).reverse =
          (recordsOf tenantID (keepNewest tenantID n items.reverse)).reverse := List.filter_reverse
      rw [hreverse, hof, newest_reverse]
      unfold recordsOf
      rw [List.filter_reverse]
    · have hreverse : recordsBeside tenantID (keepNewest tenantID n items.reverse).reverse =
          (recordsBeside tenantID (keepNewest tenantID n items.reverse)).reverse :=
        List.filter_reverse
      rw [hreverse, hbeside]
      unfold recordsBeside
      rw [List.filter_reverse, List.reverse_reverse]

theorem trim_kept {items : List AggregateCheckpoint}
    (h : ¬(trimAggregateCheckpoints items tenantID n).2 = true) :
    (trimAggregateCheckpoints items tenantID n).1 = items := by
  unfold trimAggregateCheckpoints at h ⊢
  split_ifs at h ⊢ with hcount
  · rfl
  · exact absurd rfl h

theorem lastAggregateCheckpoint_eq (items : List AggregateCheckpoint) :
    lastAggregateCheckpoint items tenantID = (recordsOf tenantID items).getLast? := by
  unfold lastAggregateCheckpoint recordsOf
  rw [← List.head?_filter, List.filter_reverse, List.head?_reverse]

end Trimming

/-! ## Section 6: What the references are -/

/-- The references name, for every stream of the tenant that has checkpoints, the
    one of the highest sequence, creation time and id. Streams are in order, each
    once. -/
structure RefersToLatest (streams : Dict (List Checkpoint)) (tenantID : String)
    (refs : List CheckpointRef) : Prop where
  sorted : refs.Pairwise (fun a b => a.streamID < b.streamID)
  covers : ∀ {key streamID : String} {checkpoints : List Checkpoint},
    streams[key]? = some checkpoints → checkpoints ≠ [] →
    splitTenantKey key = some (tenantID, streamID) → ∃ ref ∈ refs, ref.streamID = streamID
  latest : ∀ {ref : CheckpointRef}, ref ∈ refs →
    ∃ (key : String) (checkpoints : List Checkpoint) (c : Checkpoint),
      streams[key]? = some checkpoints ∧
        splitTenantKey key = some (tenantID, ref.streamID) ∧ c ∈ checkpoints ∧
        (∀ c' ∈ checkpoints, toLex (c'.sequence, toLex (c'.createdAt, c'.id)) ≤
          toLex (c.sequence, toLex (c.createdAt, c.id))) ∧ ref = c.ref

/-- Checkpoints of a stream have ids of their own. -/
def DistinctIDs (streams : Dict (List Checkpoint)) : Prop :=
  ∀ {key : String} {checkpoints : List Checkpoint}, streams[key]? = some checkpoints →
    ∀ a ∈ checkpoints, ∀ b ∈ checkpoints, a.id = b.id → a = b

/-- The same checkpoints of the same streams, listed in another order. -/
def Reordered (streams streams' : Dict (List Checkpoint)) : Prop :=
  ∀ key : String, Option.Rel List.Perm streams[key]? streams'[key]?

theorem Reordered.lookup {streams streams' : Dict (List Checkpoint)}
    (h : Reordered streams streams') {key : String} :
    (∀ {l}, streams[key]? = some l → ∃ l', streams'[key]? = some l' ∧ l.Perm l') ∧
      (∀ {l'}, streams'[key]? = some l' → ∃ l, streams[key]? = some l ∧ l.Perm l') := by
  have hkey := h key
  constructor
  · intro l hl
    rw [hl] at hkey
    cases hl' : streams'[key]? with
    | none => rw [hl'] at hkey; cases hkey
    | some l' => rw [hl'] at hkey; exact ⟨l', rfl, Option.rel_some_some.1 hkey⟩
  · intro l' hl'
    rw [hl'] at hkey
    cases hl : streams[key]? with
    | none => rw [hl] at hkey; cases hkey
    | some l => rw [hl] at hkey; exact ⟨l, rfl, Option.rel_some_some.1 hkey⟩

section References

variable {tenantID : String}

theorem latestCheckpoint_least {checkpoints : List Checkpoint} {c : Checkpoint}
    (h : latestCheckpoint checkpoints = some c) : LeastBy Checkpoint.rank checkpoints c :=
  bestOf_least newerCheckpoint_eq h

theorem checkpointRefOf_ok {key : String} {checkpoints : List Checkpoint} {ref : CheckpointRef}
    (h : checkpointRefOf tenantID key checkpoints = .ok (some ref)) :
    ∃ c, latestCheckpoint checkpoints = some c ∧ ref = c.ref ∧
      splitTenantKey key = some (tenantID, ref.streamID) := by
  unfold checkpointRefOf at h
  split at h
  · cases h
  next c hc =>
  split at h
  · cases h
  next owner streamID hsplit =>
  split_ifs at h with howner hbad
  · cases h
  rw [not_not] at howner
  simp only [not_or, not_not] at hbad
  obtain rfl : c.ref = ref := Option.some.inj (Except.ok.inj h)
  refine ⟨c, hc, rfl, ?_⟩
  rw [hsplit, howner]
  show _ = some (tenantID, c.streamID)
  rw [hbad.2.1]

theorem checkpointRefOf_covers {key streamID : String} {checkpoints : List Checkpoint}
    (hne : checkpoints ≠ []) (hsplit : splitTenantKey key = some (tenantID, streamID)) :
    checkpointRefOf tenantID key checkpoints ≠ .ok none := by
  obtain ⟨c, hc⟩ := bestOf_isSome newerCheckpoint hne
  have hlatest : latestCheckpoint checkpoints = some c := hc
  intro h
  unfold checkpointRefOf at h
  rw [hlatest, hsplit] at h
  simp only [ne_eq, not_true_eq_false, if_false] at h
  split_ifs at h
  cases h

theorem collectRefs_ok {entries : List (String × List Checkpoint)} {refs : List CheckpointRef}
    (h : collectRefs tenantID entries = .ok refs) :
    (∀ ref, ref ∈ refs ↔ ∃ p ∈ entries, checkpointRefOf tenantID p.1 p.2 = .ok (some ref)) ∧
      (∀ p ∈ entries, ∃ ref, checkpointRefOf tenantID p.1 p.2 = .ok ref) ∧
      (entries.Pairwise (fun a b => a.1 ≠ b.1) →
        refs.Pairwise (fun a b => a.streamID ≠ b.streamID)) := by
  induction entries generalizing refs with
  | nil =>
    cases h
    exact ⟨by simp, by simp, fun _ => List.Pairwise.nil⟩
  | cons p rest ih =>
    obtain ⟨key, checkpoints⟩ := p
    rw [collectRefs] at h
    split at h
    · cases h
    next found hfound =>
    cases hrest : collectRefs tenantID rest with
    | error err => rw [hrest] at h; cases h
    | ok more =>
      rw [hrest] at h
      cases h
      obtain ⟨hmem, hall, hdistinct⟩ := ih hrest
      refine ⟨?_, ?_, ?_⟩
      · intro ref
        rw [List.mem_append, hmem, Option.mem_toList]
        constructor
        · rintro (hhere | ⟨p, hp, hp'⟩)
          · exact ⟨(key, checkpoints), List.mem_cons_self, by rw [hfound, hhere]⟩
          · exact ⟨p, List.mem_cons_of_mem _ hp, hp'⟩
        · rintro ⟨p, hp, hp'⟩
          rcases List.mem_cons.1 hp with rfl | hp
          · rw [hfound] at hp'
            exact .inl (Except.ok.inj hp')
          · exact .inr ⟨p, hp, hp'⟩
      · intro p hp
        rcases List.mem_cons.1 hp with rfl | hp
        · exact ⟨found, hfound⟩
        · exact hall p hp
      · intro hkeys
        rw [List.pairwise_cons] at hkeys
        rw [List.pairwise_append]
        refine ⟨?_, hdistinct hkeys.2, ?_⟩
        · cases found with
          | none => exact List.Pairwise.nil
          | some ref => exact List.pairwise_singleton _ _
        · -- Two keys of one tenant that name one stream are one key.
          intro ref href other hother heq
          obtain ⟨p, hp, hp'⟩ := (hmem other).1 hother
          rw [Option.mem_toList] at href
          subst href
          obtain ⟨-, -, -, hsplit⟩ := checkpointRefOf_ok hfound
          obtain ⟨-, -, -, hsplit'⟩ := checkpointRefOf_ok hp'
          rw [heq] at hsplit
          exact hkeys.1 p hp (splitTenantKey_inj hsplit hsplit')

theorem collectRefs_isOk {entries : List (String × List Checkpoint)}
    (h : ∀ p ∈ entries, ∃ ref, checkpointRefOf tenantID p.1 p.2 = .ok ref) :
    ∃ refs, collectRefs tenantID entries = .ok refs := by
  induction entries with
  | nil => exact ⟨[], rfl⟩
  | cons p rest ih =>
    obtain ⟨key, checkpoints⟩ := p
    obtain ⟨ref, href⟩ := h (key, checkpoints) List.mem_cons_self
    obtain ⟨refs, hrefs⟩ := ih fun p hp => h p (List.mem_cons_of_mem _ hp)
    refine ⟨ref.toList ++ refs, ?_⟩
    rw [collectRefs, href]
    show (collectRefs tenantID rest).map _ = _
    rw [hrefs]
    rfl

/-- The fields of a reference in the order they are compared in. -/
def CheckpointRef.rank (ref : CheckpointRef) : String ×ₗ (String ×ₗ (Int ×ₗ String)) :=
  toLex (ref.streamID, toLex (ref.checkpointID, toLex (ref.sequence, ref.merkleRoot)))

theorem compareRefs_eq : compareRefs = fun a b => decide (a.rank < b.rank) := by
  funext a b
  rw [Bool.eq_iff_iff, decide_eq_true_eq]
  unfold CheckpointRef.rank compareRefs
  rw [Prod.Lex.toLex_lt_toLex, Prod.Lex.toLex_lt_toLex, Prod.Lex.toLex_lt_toLex]
  split_ifs with hstream hid hseq
  · simp [hstream]
  · simp [not_not.1 hstream, hid]
  · simp [not_not.1 hstream, not_not.1 hid, hseq]
  · simp [not_not.1 hstream, not_not.1 hid, not_not.1 hseq]

theorem aggregateCheckpointRefs_ok {order : RangeOrder} {sort : SliceSort} {data : Snapshot}
    {refs : List CheckpointRef}
    (h : aggregateCheckpointRefs order sort data tenantID = .ok refs) :
    RefersToLatest data.checkpoints tenantID refs := by
  unfold aggregateCheckpointRefs at h
  cases hcollect : collectRefs tenantID (order.entries data.checkpoints) with
  | error err => rw [hcollect] at h; cases h
  | ok collected =>
    rw [hcollect] at h
    cases h
    obtain ⟨hmem, hall, hdistinct⟩ := collectRefs_ok hcollect
    have hperm : (sort.run compareRefs collected).Perm collected := sort.perm _ _
    refine ⟨?_, ?_, ?_⟩
    · -- Sorted by rank, and no stream twice: strictly sorted by stream.
      have hsorted : (sort.run compareRefs collected).Pairwise (fun a b => a.rank ≤ b.rank) := by
        rw [compareRefs_eq]
        exact sort.sorted CheckpointRef.rank collected
      have hne := hperm.symm.pairwise (hdistinct (order.entries_distinct _)) fun h => h.symm
      apply (hsorted.and hne).imp
      rintro a b ⟨hle, hne⟩
      unfold CheckpointRef.rank at hle
      rcases Prod.Lex.toLex_le_toLex.1 hle with hlt | ⟨heq, -⟩
      · exact hlt
      · exact absurd heq hne
    · intro key streamID checkpoints hkey hnonempty hsplit
      have hentry := order.mem_entries.2 hkey
      obtain ⟨found, hfound⟩ := hall _ hentry
      cases found with
      | none => exact absurd hfound (checkpointRefOf_covers hnonempty hsplit)
      | some ref =>
        obtain ⟨c, -, -, hsplit'⟩ := checkpointRefOf_ok hfound
        refine ⟨ref, hperm.mem_iff.2 ((hmem ref).2 ⟨_, hentry, hfound⟩), ?_⟩
        have hpair := hsplit.symm.trans hsplit'
        exact (Prod.mk.inj (Option.some.inj hpair)).2.symm
    · intro ref href
      obtain ⟨⟨key, checkpoints⟩, hentry, hfound⟩ := (hmem ref).1 (hperm.mem_iff.1 href)
      obtain ⟨c, hc, heq, hsplit⟩ := checkpointRefOf_ok hfound
      obtain ⟨hin, hleast⟩ := latestCheckpoint_least hc
      exact ⟨key, checkpoints, c, order.mem_entries.1 hentry, hsplit, hin,
        fun c' hc' => hleast c' hc', heq⟩

theorem RefersToLatest.unique {streams : Dict (List Checkpoint)} (hids : DistinctIDs streams)
    {refs refs' : List CheckpointRef} (h : RefersToLatest streams tenantID refs)
    (h' : RefersToLatest streams tenantID refs') : refs = refs' := by
  have hsub : ∀ {refs refs' : List CheckpointRef}, RefersToLatest streams tenantID refs →
      RefersToLatest streams tenantID refs' → ∀ ref ∈ refs, ref ∈ refs' := by
    intro refs refs' h h' ref href
    obtain ⟨key, checkpoints, c, hkey, hsplit, hin, hmax, rfl⟩ := h.latest href
    obtain ⟨ref', href', hstream⟩ := h'.covers hkey (List.ne_nil_of_mem hin) hsplit
    obtain ⟨key', checkpoints', c', hkey', hsplit', hin', hmax', rfl⟩ := h'.latest href'
    rw [hstream] at hsplit'
    obtain rfl := splitTenantKey_inj hsplit hsplit'
    obtain rfl : checkpoints = checkpoints' := Option.some.inj (hkey.symm.trans hkey')
    -- Two maximal checkpoints of one list have one rank, hence one id.
    have hrank : c.rank = c'.rank :=
      congrArg OrderDual.toDual (le_antisymm (hmax' c hin) (hmax c' hin'))
    rw [hids hkey c hin c' hin' (Checkpoint.id_of_rank hrank)]
    exact href'
  have hnodup : ∀ {refs : List CheckpointRef}, RefersToLatest streams tenantID refs →
      refs.Nodup := fun h => h.sorted.imp fun hlt heq => absurd (heq ▸ hlt) (lt_irrefl _)
  have hperm : refs.Perm refs' := (List.perm_ext_iff_of_nodup (hnodup h) (hnodup h')).2
    fun ref => ⟨hsub h h' ref, hsub h' h ref⟩
  exact hperm.eq_of_pairwise (fun a b _ _ hab hba => absurd (hab.trans hba) (lt_irrefl _))
    h.sorted h'.sorted

theorem latestCheckpoint_perm {checkpoints checkpoints' : List Checkpoint}
    (hperm : checkpoints.Perm checkpoints')
    (hids : ∀ a ∈ checkpoints, ∀ b ∈ checkpoints, a.id = b.id → a = b) :
    latestCheckpoint checkpoints = latestCheckpoint checkpoints' := by
  have hinj : ∀ a ∈ checkpoints', ∀ b ∈ checkpoints', a.rank = b.rank → a = b :=
    fun a ha b hb hrank => hids a (hperm.mem_iff.2 ha) b (hperm.mem_iff.2 hb)
      (Checkpoint.id_of_rank hrank)
  rcases List.eq_nil_or_concat' checkpoints with rfl | ⟨init, c, rfl⟩
  · rw [hperm.nil_eq]
  · obtain ⟨latest, hlatest⟩ :=
      bestOf_isSome newerCheckpoint (List.append_ne_nil_of_right_ne_nil init (List.cons_ne_nil c []))
    have hleast := (latestCheckpoint_least hlatest).perm hperm
    exact hlatest.trans ((bestOf_eq_iff newerCheckpoint_eq hinj).2 hleast).symm

theorem RefersToLatest.reordered {streams streams' : Dict (List Checkpoint)}
    (hsame : Reordered streams streams') {refs : List CheckpointRef}
    (h : RefersToLatest streams' tenantID refs) : RefersToLatest streams tenantID refs := by
  refine ⟨h.sorted, ?_, ?_⟩
  · intro key streamID checkpoints hkey hnonempty hsplit
    obtain ⟨checkpoints', hkey', hperm⟩ := hsame.lookup.1 hkey
    exact h.covers hkey' (fun hnil => hnonempty (hnil ▸ hperm).eq_nil) hsplit
  · intro ref href
    obtain ⟨key, checkpoints', c, hkey', hsplit, hin, hmax, heq⟩ := h.latest href
    obtain ⟨checkpoints, hkey, hperm⟩ := hsame.lookup.2 hkey'
    exact ⟨key, checkpoints, c, hkey, hsplit, hperm.mem_iff.2 hin,
      fun c' hc' => hmax c' (hperm.mem_iff.1 hc'), heq⟩

theorem aggregateCheckpointRefs_reordered {order : RangeOrder} {sort : SliceSort}
    {data : Snapshot} {refs : List CheckpointRef}
    (h : aggregateCheckpointRefs order sort data tenantID = .ok refs)
    (hids : DistinctIDs data.checkpoints) (order' : RangeOrder) (sort' : SliceSort)
    {data' : Snapshot} (hsame : Reordered data.checkpoints data'.checkpoints) :
    aggregateCheckpointRefs order' sort' data' tenantID = .ok refs := by
  have hlatest := aggregateCheckpointRefs_ok h
  unfold aggregateCheckpointRefs at h
  cases hcollect : collectRefs tenantID (order.entries data.checkpoints) with
  | error err => rw [hcollect] at h; cases h
  | ok collected =>
    obtain ⟨-, hall, -⟩ := collectRefs_ok hcollect
    obtain ⟨collected', hcollect'⟩ : ∃ refs,
        collectRefs tenantID (order'.entries data'.checkpoints) = .ok refs := by
      apply collectRefs_isOk
      rintro ⟨key, checkpoints'⟩ hentry
      obtain ⟨checkpoints, hkey, hperm⟩ := hsame.lookup.2 (order'.mem_entries.1 hentry)
      obtain ⟨ref, href⟩ := hall _ (order.mem_entries.2 hkey)
      refine ⟨ref, ?_⟩
      dsimp only at href ⊢
      unfold checkpointRefOf at href ⊢
      rw [← latestCheckpoint_perm hperm (hids hkey)]
      exact href
    have hrun : aggregateCheckpointRefs order' sort' data' tenantID =
        .ok (sort'.run compareRefs collected') := by
      unfold aggregateCheckpointRefs
      rw [hcollect']
      rfl
    rw [hrun, hlatest.unique hids ((aggregateCheckpointRefs_ok hrun).reordered hsame)]

end References

/-! ## Section 7: What a call does -/

/-- What a call that found references does to the list of records. -/
structure Attested (a : Attester) (call : AggregateCall) (data : Snapshot)
    (out : AggregateOutcome) (refs : List CheckpointRef) (candidate : AggregateCheckpoint) :
    Prop where
  owner : candidate.tenantID = call.tenantID
  refers : candidate.checkpointRefs = refs
  kept : recordsOf call.tenantID out.data.aggregateCheckpoints =
    newest a.cap (recordsOf call.tenantID data.aggregateCheckpoints ++ out.appended.toList)
  beside : recordsBeside call.tenantID out.data.aggregateCheckpoints =
    recordsBeside call.tenantID data.aggregateCheckpoints
  /-- Either the record is new and appended, or the last one attests the same. -/
  outcome : (out.appended = some candidate ∧
      ∀ last, (recordsOf call.tenantID data.aggregateCheckpoints).getLast? = some last →
        sameAggregateAttestation last candidate = false) ∨
    (out.appended = none ∧
      ∃ last, (recordsOf call.tenantID data.aggregateCheckpoints).getLast? = some last ∧
        sameAggregateAttestation last candidate = true)

namespace Attester

variable {a : Attester} {call : AggregateCall} {data : Snapshot} {out : AggregateOutcome}

theorem attest_ok {refs : List CheckpointRef} {candidate : AggregateCheckpoint}
    (h : a.attest call refs = .ok candidate) :
    candidate.tenantID = call.tenantID ∧ candidate.checkpointRefs = refs := by
  unfold attest at h
  dsimp only at h
  split at h
  · cases h
  split at h
  · cases h
  cases h
  exact ⟨rfl, rfl⟩

theorem appendAggregate_attested {refs : List CheckpointRef} {candidate : AggregateCheckpoint}
    (hcandidate : candidate.tenantID = call.tenantID ∧ candidate.checkpointRefs = refs)
    (hnew : ∀ last, (recordsOf call.tenantID data.aggregateCheckpoints).getLast? = some last →
      sameAggregateAttestation last candidate = false) :
    Attested a call data (createAggregateCheckpoint.appendAggregate a call data candidate) refs
      candidate := by
  obtain ⟨hof, hbeside⟩ := @trim_records call.tenantID a.cap
    (data.aggregateCheckpoints ++ [candidate])
  have hone : recordsOf call.tenantID [candidate] = [candidate] := by
    rw [recordsOf_cons, if_pos hcandidate.1]
    rfl
  have hnone : recordsBeside call.tenantID [candidate] = [] := by
    rw [recordsBeside_cons, if_pos hcandidate.1]
    rfl
  refine ⟨hcandidate.1, hcandidate.2, ?_, ?_, .inl ⟨rfl, hnew⟩⟩
  · refine hof.trans ?_
    unfold recordsOf at hone ⊢
    rw [List.filter_append, hone]
    rfl
  · refine hbeside.trans ?_
    unfold recordsBeside at hnone ⊢
    rw [List.filter_append, hnone, List.append_nil]

theorem createAggregateCheckpoint_ok (h : a.createAggregateCheckpoint call data = .ok out) :
    ∃ refs, aggregateCheckpointRefs call.order call.sort data call.tenantID = .ok refs ∧
      ((refs = [] ∧ out = ⟨data, none⟩) ∨
        ∃ candidate, Attested a call data out refs candidate) := by
  unfold createAggregateCheckpoint at h
  split at h
  · cases h
  split at h
  · cases h
  · next hrefs =>
    cases h
    exact ⟨[], hrefs, .inl ⟨rfl, rfl⟩⟩
  next refs hempty hrefs =>
  refine ⟨refs, hrefs, .inr ?_⟩
  split at h
  · cases h
  next candidate hcandidate =>
  have hfacts := attest_ok hcandidate
  rw [lastAggregateCheckpoint_eq] at h
  refine ⟨candidate, ?_⟩
  split at h
  · next last hlast =>
    split_ifs at h with hsame
    · cases h
      obtain ⟨hof, hbeside⟩ := @trim_records call.tenantID a.cap data.aggregateCheckpoints
      refine ⟨hfacts.1, hfacts.2, ?_, ?_, .inr ⟨rfl, last, hlast, hsame⟩⟩
      · show recordsOf _ _ = newest _ (_ ++ [])
        rw [List.append_nil]
        dsimp only
        split
        · exact hof
        next hkept =>
          rw [trim_kept hkept] at hof
          exact hof
      · dsimp only
        split
        · exact hbeside
        · rfl
    · cases h
      refine appendAggregate_attested hfacts ?_
      intro last' hlast'
      rw [hlast] at hlast'
      cases hlast'
      exact Bool.not_eq_true _ ▸ hsame
  · next hnone =>
    cases h
    refine appendAggregate_attested hfacts ?_
    intro last hlast
    rw [hnone] at hlast
    cases hlast

end Attester

/-! ## Section 8: Runs of calls -/

/-- A run of calls for any tenants, with the records they appended. Steps of
    other operations may change anything but the records; a call that fails
    changes nothing. -/
inductive AggregateRun (a : Attester) (start : Snapshot) :
    Snapshot → List AggregateCheckpoint → Prop
  | start : AggregateRun a start start []
  | call {data : Snapshot} {appended : List AggregateCheckpoint} {call : AggregateCall}
      {out : AggregateOutcome} : AggregateRun a start data appended →
      a.createAggregateCheckpoint call data = .ok out →
      AggregateRun a start out.data (appended ++ out.appended.toList)
  | elsewhere {data data' : Snapshot} {appended : List AggregateCheckpoint} :
      AggregateRun a start data appended →
      data'.aggregateCheckpoints = data.aggregateCheckpoints →
      AggregateRun a start data' appended

/-- The history of a tenant: what is there is the newest of all there was, and
    records appended one after the other attest different things. -/
structure TenantHistory (a : Attester) (tenantID : String) (start data : Snapshot)
    (appended : List AggregateCheckpoint) : Prop where
  kept : newest a.cap (recordsOf tenantID data.aggregateCheckpoints) =
    newest a.cap (recordsOf tenantID start.aggregateCheckpoints ++ recordsOf tenantID appended)
  changing : (recordsOf tenantID appended).IsChain
    fun earlier later => sameAggregateAttestation earlier later = false

theorem Attester.cap_pos (a : Attester) : 1 ≤ a.cap := by
  show 1 ≤ retentionCap a.retention
  unfold retentionCap
  split_ifs <;> omega

section Histories

variable {a : Attester} {call : AggregateCall} {data start : Snapshot} {out : AggregateOutcome}
  {tenantID : String} {appended : List AggregateCheckpoint}

theorem recordsOf_append (l l' : List AggregateCheckpoint) :
    recordsOf tenantID (l ++ l') = recordsOf tenantID l ++ recordsOf tenantID l' :=
  List.filter_append ..

theorem recordsOf_recordsBeside {other : String} (hne : tenantID ≠ other)
    (items : List AggregateCheckpoint) :
    recordsOf tenantID (recordsBeside other items) = recordsOf tenantID items := by
  unfold recordsOf recordsBeside
  rw [List.filter_filter]
  apply List.filter_congr
  intro item _
  by_cases hitem : item.tenantID = tenantID
  · simp [hitem, hne]
  · simp [hitem]

theorem Attested.appended_records {refs : List CheckpointRef} {candidate : AggregateCheckpoint}
    (h : Attested a call data out refs candidate) :
    recordsOf tenantID out.appended.toList =
      if tenantID = call.tenantID then out.appended.toList else [] := by
  rcases h.outcome with ⟨hsome, -⟩ | ⟨hnone, -⟩
  · rw [hsome, Option.toList_some, recordsOf_cons, h.owner]
    by_cases heq : tenantID = call.tenantID
    · rw [if_pos heq.symm, if_pos heq]
      rfl
    · rw [if_neg (Ne.symm heq), if_neg heq]
      rfl
  · rw [hnone]
    split_ifs <;> rfl

theorem Attested.last {refs : List CheckpointRef} {candidate : AggregateCheckpoint}
    (h : Attested a call data out refs candidate) :
    ∃ last, (recordsOf call.tenantID out.data.aggregateCheckpoints).getLast? = some last ∧
      last.checkpointRefs = refs := by
  rw [h.kept, getLast?_newest a.cap_pos, List.getLast?_append]
  rcases h.outcome with ⟨hsome, -⟩ | ⟨hnone, last, hlast, hsame⟩
  · rw [hsome]
    exact ⟨candidate, rfl, h.refers⟩
  · rw [hnone, hlast]
    refine ⟨last, rfl, ?_⟩
    rw [← h.refers, ← sameAggregateAttestation_iff.1 hsame]

theorem TenantHistory.last (h : TenantHistory a tenantID start data appended)
    {record : AggregateCheckpoint} (hrecord : (recordsOf tenantID appended).getLast? = some record) :
    (recordsOf tenantID data.aggregateCheckpoints).getLast? = some record := by
  rw [← getLast?_newest a.cap_pos, h.kept, getLast?_newest a.cap_pos, List.getLast?_append, hrecord]
  rfl

theorem TenantHistory.attest {refs : List CheckpointRef} {candidate : AggregateCheckpoint}
    (h : TenantHistory a call.tenantID start data appended)
    (hattested : Attested a call data out refs candidate) :
    recordsOf call.tenantID out.data.aggregateCheckpoints =
        newest a.cap (recordsOf call.tenantID start.aggregateCheckpoints ++
          recordsOf call.tenantID (appended ++ out.appended.toList)) ∧
      TenantHistory a call.tenantID start out.data (appended ++ out.appended.toList) := by
  have hmore : recordsOf call.tenantID out.appended.toList = out.appended.toList := by
    rw [hattested.appended_records, if_pos rfl]
  have hkept : recordsOf call.tenantID out.data.aggregateCheckpoints =
      newest a.cap (recordsOf call.tenantID start.aggregateCheckpoints ++
        recordsOf call.tenantID (appended ++ out.appended.toList)) := by
    rw [hattested.kept, ← newest_newest_append, h.kept, newest_newest_append, recordsOf_append,
      hmore, List.append_assoc]
  refine ⟨hkept, ?_, ?_⟩
  · rw [hkept, newest_of_length_le (length_newest _)]
  · rw [recordsOf_append, hmore]
    rcases hattested.outcome with ⟨hsome, hnew⟩ | ⟨hnone, -⟩
    · rw [hsome, Option.toList_some, List.isChain_append]
      refine ⟨h.changing, List.isChain_singleton _, ?_⟩
      intro earlier hearlier later hlater
      cases hlater
      exact hnew earlier (h.last hearlier)
    · rw [hnone, Option.toList_none, List.append_nil]
      exact h.changing

theorem TenantHistory.beside {refs : List CheckpointRef} {candidate : AggregateCheckpoint}
    (h : TenantHistory a tenantID start data appended) (hne : tenantID ≠ call.tenantID)
    (hattested : Attested a call data out refs candidate) :
    TenantHistory a tenantID start out.data (appended ++ out.appended.toList) := by
  have hsame : recordsOf tenantID out.data.aggregateCheckpoints =
      recordsOf tenantID data.aggregateCheckpoints := by
    rw [← recordsOf_recordsBeside hne, hattested.beside, recordsOf_recordsBeside hne]
  have hmore : recordsOf tenantID (appended ++ out.appended.toList) =
      recordsOf tenantID appended := by
    rw [recordsOf_append, hattested.appended_records, if_neg hne, List.append_nil]
  refine ⟨?_, ?_⟩
  · rw [hsame, hmore]
    exact h.kept
  · rw [hmore]
    exact h.changing

theorem AggregateRun.history (hrun : AggregateRun a start data appended) (tenantID : String) :
    TenantHistory a tenantID start data appended := by
  induction hrun with
  | start =>
    refine ⟨?_, List.isChain_nil⟩
    show _ = newest _ (_ ++ [])
    rw [List.append_nil]
  | @call data appended call out _ hcall ih =>
    obtain ⟨refs, -, ⟨-, rfl⟩ | ⟨candidate, hattested⟩⟩ :=
      Attester.createAggregateCheckpoint_ok hcall
    · rw [Option.toList_none, List.append_nil]
      exact ih
    · by_cases htenant : tenantID = call.tenantID
      · subst htenant
        exact (ih.attest hattested).2
      · exact ih.beside htenant hattested
  | elsewhere _ hsame ih => exact ⟨by rw [hsame]; exact ih.kept, ih.changing⟩

end Histories

/-! ## Section 9: The history of a tenant -/

/-- A successful call for a tenant with checkpoints, after any run: the tenant has
    the newest records of all there were, up to the cap; the records of the
    others are untouched; its newest record refers to the newest checkpoint of
    every stream, whatever the order of dictionary and lists; and no record it
    got in the run attests the same as the one before. -/
theorem aggregate_history_exact {a : Attester} {start data : Snapshot}
    {appended : List AggregateCheckpoint} (hrun : AggregateRun a start data appended)
    (hids : DistinctIDs data.checkpoints) {call : AggregateCall} {out : AggregateOutcome}
    (hcall : a.createAggregateCheckpoint call data = .ok out)
    {key streamID : String} {checkpoints : List Checkpoint}
    (hkey : data.checkpoints[key]? = some checkpoints) (hnonempty : checkpoints ≠ [])
    (hsplit : splitTenantKey key = some (call.tenantID, streamID)) :
    (recordsOf call.tenantID out.data.aggregateCheckpoints).length ≤ a.cap ∧
      recordsOf call.tenantID out.data.aggregateCheckpoints =
        newest a.cap (recordsOf call.tenantID start.aggregateCheckpoints ++
          recordsOf call.tenantID (appended ++ out.appended.toList)) ∧
      recordsBeside call.tenantID out.data.aggregateCheckpoints =
        recordsBeside call.tenantID data.aggregateCheckpoints ∧
      (∃ last, (recordsOf call.tenantID out.data.aggregateCheckpoints).getLast? = some last ∧
        RefersToLatest data.checkpoints call.tenantID last.checkpointRefs ∧
        ∀ (order : RangeOrder) (sort : SliceSort) (data' : Snapshot),
          Reordered data.checkpoints data'.checkpoints →
          aggregateCheckpointRefs order sort data' call.tenantID = .ok last.checkpointRefs) ∧
      (recordsOf call.tenantID (appended ++ out.appended.toList)).IsChain
        fun earlier later => sameAggregateAttestation earlier later = false := by
  obtain ⟨refs, hrefs, hcase⟩ := Attester.createAggregateCheckpoint_ok hcall
  have hlatest := aggregateCheckpointRefs_ok hrefs
  rcases hcase with ⟨rfl, -⟩ | ⟨candidate, hattested⟩
  · -- The stream with checkpoints is referred to, so there are references.
    obtain ⟨ref, href, -⟩ := hlatest.covers hkey hnonempty hsplit
    exact absurd href List.not_mem_nil
  · obtain ⟨hkept, hhistory⟩ := (hrun.history call.tenantID).attest hattested
    refine ⟨by rw [hkept]; exact length_newest _, hkept, hattested.beside, ?_, hhistory.changing⟩
    obtain ⟨last, hlast, hlastRefs⟩ := hattested.last
    refine ⟨last, hlast, ?_, ?_⟩
    · rw [hlastRefs]
      exact hlatest
    · intro order sort data' hsame
      rw [hlastRefs]
      exact aggregateCheckpointRefs_reordered hrefs hids order sort hsame

/-- A process that keeps one record for each tenant and signs with the payload. -/
def frugalAttester : Attester where
  env := (developmentDeployment 4).env
  sign payload := .ok (String.ofList (Base64.encodeBytes payload))
  retention := 1

def acmeCheckpoint (streamID id : String) (sequence : Int) : Checkpoint :=
  { id := id, tenantID := "acme", streamID := streamID, sequence := sequence, merkleRoot := id }

/-- Two streams of `acme`, and an older record of it beside one of `umbrella`. -/
def acmeStreams : Snapshot :=
  { (default : Snapshot) with
    checkpoints := ((∅ : Dict (List Checkpoint)).insert (streamKey "acme" "main")
      [acmeCheckpoint "main" "m5" 5, acmeCheckpoint "main" "m9" 9]).insert
        (streamKey "acme" "jobs") [acmeCheckpoint "jobs" "j2" 2]
    aggregateCheckpoints := [{ id := "old", tenantID := "acme" },
      { id := "beside", tenantID := "umbrella" }] }

def acmeCall : AggregateCall where
  tenantID := "acme"
  now := 0
  id := "new"
  order := .byKey
  sort := .insertion

instance : Inhabited AggregateOutcome := ⟨⟨default, none⟩⟩

theorem acmeStreams_distinct : DistinctIDs acmeStreams.checkpoints := by
  intro key checkpoints hkey
  unfold acmeStreams at hkey
  dsimp only at hkey
  rw [lookup_insert, lookup_insert, lookup_empty] at hkey
  split_ifs at hkey
  · cases hkey
    decide
  · cases hkey
    decide

/-- The old record of `acme` makes room for the new one. -/
theorem acme_attested : ∃ out,
    frugalAttester.createAggregateCheckpoint acmeCall acmeStreams = .ok out ∧
      (recordsOf "acme" out.data.aggregateCheckpoints).length ≤ 1 ∧
      recordsBeside "acme" out.data.aggregateCheckpoints =
        [{ id := "beside", tenantID := "umbrella" }] ∧
      ∃ last, (recordsOf "acme" out.data.aggregateCheckpoints).getLast? = some last ∧
        RefersToLatest acmeStreams.checkpoints "acme" last.checkpointRefs := by
  have hcall := eq_ok_okValue
    (show (frugalAttester.createAggregateCheckpoint acmeCall acmeStreams).isOk = true by
      decide +kernel)
  have hkey : acmeStreams.checkpoints[streamKey "acme" "jobs"]? =
      some [acmeCheckpoint "jobs" "j2" 2] := lookup_insert_self _ _ _
  have hsplit : splitTenantKey (streamKey "acme" "jobs") = some ("acme", "jobs") := by decide
  obtain ⟨hlength, -, hbeside, ⟨last, hlast, hrefers, -⟩, -⟩ :=
    aggregate_history_exact (.start : AggregateRun frugalAttester acmeStreams acmeStreams [])
      acmeStreams_distinct hcall hkey (by decide) hsplit
  exact ⟨_, hcall, hlength, hbeside, last, hlast, hrefers⟩

end AuditGovernance
