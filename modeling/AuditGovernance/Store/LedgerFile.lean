import AuditGovernance.Framework.LineLog
import AuditGovernance.Framework.Transition
import AuditGovernance.Store.FileCommit

/-! # The ledger file as bytes

    `FileStore` keeps a ledger file as the list of its records. Here the file
    is the bytes that `appendLedgerFile` and `readLedgerFile` see
    (`internal/store/hotcold_files.go`): one JSON object per line, written by
    appends that may fail after any part of their bytes. The JSON encoding of
    a record is a `LineCodec`: `encoding/json` decodes the first value of a
    line without looking behind it, and rejects a value that is cut short.
-/

instance countableChar : Countable Char :=
  Function.Injective.countable (f := Char.toNat) (fun _ _ h => Char.toNat_inj.1 h)

instance countableString : Countable String :=
  Function.Injective.countable (f := String.toList) (fun _ _ h => String.toList_inj.1 h)

namespace AuditGovernance

open FiniteMap LineLog Transition

/-! ## Section 1: Reading and writing -/

/-- `scanner.Buffer(…, 4*1024*1024)`: a line and its newline must fit. -/
def maxLedgerLine : Nat := 4 * 1024 * 1024

/-- The checks `readLedgerFile` makes of a decoded record. -/
def checkLedgerLine (tenantID : String) (r : LedgerRecord) : Except Err Unit :=
  if r.tenantID ≠ tenantID then .error (.plain ("ledger file contains tenant " ++ r.tenantID.quote))
  else validateLedgerRecord r

def ledgerReader (tenantID : String) : Reader LedgerRecord Err where
  limit := maxLedgerLine
  tooLong := .plain "bufio.Scanner: token too long"
  malformed := .plain "decode ledger file"
  check := checkLedgerLine tenantID

/-- `readLedgerFile`. -/
def readLedgerFile (codec : LineCodec LedgerRecord) (tenantID : String) (file : Bytes) :
    Except Err (List LedgerRecord) :=
  (ledgerReader tenantID).read codec file

/-- The line of the record can be scanned. -/
def FitsLine (codec : LineCodec LedgerRecord) (r : LedgerRecord) : Prop :=
  (codec.encode r).length < maxLedgerLine

/-- Records of the tenant that pass validation: what `appendLedger` hands to
    `appendLedgerFile`. -/
def WritableRecords (tenantID : String) (records : List LedgerRecord) : Prop :=
  ∀ r ∈ records, r.tenantID = tenantID ∧ validateLedgerRecord r = .ok ()

instance (tenantID : String) (records : List LedgerRecord) :
    Decidable (WritableRecords tenantID records) :=
  inferInstanceAs (Decidable (∀ r ∈ records, r.tenantID = tenantID ∧ validateLedgerRecord r = .ok ()))

theorem ledgerReader_accepts {codec : LineCodec LedgerRecord} {t : String}
    {records : List LedgerRecord} (hw : WritableRecords t records)
    (hfit : ∀ r ∈ records, FitsLine codec r) :
    ∀ r ∈ records, (ledgerReader t).Accepts codec r := by
  intro r hr
  obtain ⟨ht, hv⟩ := hw r hr
  refine ⟨hfit r hr, ?_⟩
  show checkLedgerLine t r = .ok ()
  rw [checkLedgerLine, if_neg (by simp [ht]), hv]

/-- The file, and the records of the appends that returned success. -/
structure LedgerLog where
  file : Bytes := []
  acknowledged : List LedgerRecord := []

inductive LogOp where
  | append (records : List LedgerRecord)
  /-- An append that fails after writing this many of its bytes. -/
  | tornAppend (records : List LedgerRecord) (written : Nat)
  /-- Reading the file back; it changes nothing. -/
  | reopen

namespace LedgerLog

variable (codec : LineCodec LedgerRecord) (t : String)

/-- `appendLedgerFile`, and its failures. -/
def perform (log : LedgerLog) : LogOp → Option LedgerLog
  | .append records =>
    if WritableRecords t records then
      some ⟨log.file ++ codec.text records, log.acknowledged ++ records⟩
    else none
  | .tornAppend records written =>
    if WritableRecords t records then
      some ⟨log.file ++ (codec.text records).take written, log.acknowledged⟩
    else none
  | .reopen => some log

/-- Histories of one ledger file, starting from an empty one. -/
def appends : System LedgerLog LogOp where
  init log := log = {}
  step := perform codec t

/-- Lines fit the scanner, and a failed append stops between two lines. -/
def AtLineEnds (_ : LedgerLog) : LogOp → Prop
  | .append records => ∀ r ∈ records, FitsLine codec r
  | .tornAppend records written => (∀ r ∈ records, FitsLine codec r) ∧
      ∃ k, (codec.text records).take written = codec.text (records.take k)
  | .reopen => True

variable {codec t}

/-- The file consists of complete lines that hold all acknowledged records. -/
def Complete (codec : LineCodec LedgerRecord) (t : String) (log : LedgerLog) : Prop :=
  ∃ records, log.file = codec.text records ∧ WritableRecords t records ∧
    (∀ r ∈ records, FitsLine codec r) ∧ ∀ r ∈ log.acknowledged, r ∈ records

theorem Complete.extend {log : LedgerLog} (h : Complete codec t log) {more acks : List LedgerRecord}
    (hw : WritableRecords t more) (hfit : ∀ r ∈ more, FitsLine codec r)
    (hacks : ∀ r ∈ acks, r ∈ log.acknowledged ∨ r ∈ more) :
    Complete codec t ⟨log.file ++ codec.text more, acks⟩ := by
  obtain ⟨records, hfile, hwritable, hfits, hacknowledged⟩ := h
  refine ⟨records ++ more, ?_, ?_, ?_, ?_⟩
  · show log.file ++ codec.text more = _
    rw [hfile, LineCodec.text_append]
  · intro r hr
    rcases List.mem_append.1 hr with hr | hr
    · exact hwritable r hr
    · exact hw r hr
  · intro r hr
    rcases List.mem_append.1 hr with hr | hr
    · exact hfits r hr
    · exact hfit r hr
  · intro r hr
    rw [List.mem_append]
    rcases hacks r hr with hr | hr
    · exact .inl (hacknowledged r hr)
    · exact .inr hr

theorem Complete.perform {log log' : LedgerLog} (h : Complete codec t log) {op : LogOp}
    (hg : AtLineEnds codec log op) (hs : log.perform codec t op = some log') :
    Complete codec t log' := by
  cases op with
  | append records =>
    simp only [LedgerLog.perform, Option.ite_none_right_eq_some, Option.some.injEq] at hs
    obtain ⟨hw, rfl⟩ := hs
    apply h.extend hw hg
    intro r hr
    exact List.mem_append.1 hr
  | tornAppend records written =>
    simp only [LedgerLog.perform, Option.ite_none_right_eq_some, Option.some.injEq] at hs
    obtain ⟨hw, rfl⟩ := hs
    obtain ⟨hfit, k, hk⟩ := hg
    rw [hk]
    apply h.extend
    · exact fun r hr => hw r (List.mem_of_mem_take hr)
    · exact fun r hr => hfit r (List.mem_of_mem_take hr)
    · exact fun r hr => .inl hr
  | reopen =>
    cases hs
    exact h

theorem Complete.readable {log : LedgerLog} (h : Complete codec t log) :
    ∃ records, readLedgerFile codec t log.file = .ok records ∧
      ∀ r ∈ log.acknowledged, r ∈ records := by
  obtain ⟨records, hfile, hw, hfit, hack⟩ := h
  refine ⟨records, ?_, hack⟩
  rw [hfile]
  exact Reader.read_text (ledgerReader_accepts hw hfit)

/-- A small receipt record. -/
def smallRecord : LedgerRecord := receiptRecord 1 { eventID := "e", tenantID := "t" }

deriving instance Countable for Status, LedgerRecordType, EventReceipt, Segment, Checkpoint,
  LedgerRecord

/-- An encoding in which the small record takes three bytes with its newline. -/
noncomputable def smallCodec : LineCodec LedgerRecord :=
  @LineCodec.unary _ (Encodable.ofCountable _) smallRecord

theorem smallRecord_encode : smallCodec.encode smallRecord = [openBrace, closeBrace] :=
  @LineCodec.unary_encode_first _ (Encodable.ofCountable _) smallRecord

theorem smallRecord_fits : FitsLine smallCodec smallRecord := by
  unfold FitsLine
  rw [smallRecord_encode]
  decide

theorem torn_first_byte (codec : LineCodec LedgerRecord) :
    ∃ log, (appends codec "t").exec {} [.append [smallRecord], .tornAppend [smallRecord] 1] =
        some log ∧
      1 < (codec.text [smallRecord]).length ∧ log.acknowledged = [smallRecord] ∧
      ∃ e, readLedgerFile codec "t" log.file = .error e := by
  obtain ⟨body, hbody⟩ := codec.braces smallRecord
  have hw : WritableRecords "t" [smallRecord] := by decide
  have htake : (codec.text [smallRecord]).take 1 = [openBrace] := by
    rw [LineCodec.text_cons, hbody]
    rfl
  refine ⟨⟨codec.text [smallRecord] ++ [openBrace], [smallRecord]⟩, ?_, ?_, rfl, ?_⟩
  · simp only [appends, System.exec, perform, if_pos hw, Option.bind_some, htake]
    rfl
  · rw [LineCodec.text_cons, hbody]
    simp
  · have hopen : [openBrace] <+: codec.encode smallRecord := by
      rw [hbody]
      exact ⟨body ++ [closeBrace], rfl⟩
    have hcut : [openBrace] ≠ codec.encode smallRecord := by
      rw [hbody]
      simp
    by_cases hfit : FitsLine codec smallRecord
    · have haccept := ledgerReader_accepts hw (by simpa using hfit)
      refine ⟨(ledgerReader "t").malformed, ?_⟩
      show (ledgerReader "t").read codec (codec.text [smallRecord] ++ [openBrace]) = _
      rw [Reader.read_text_append haccept,
        Reader.read_truncated (by decide) hopen (List.cons_ne_nil _ _) hcut]
      rfl
    · -- a line that does not fit is refused by the scanner already
      have hlong : (codec.encode smallRecord).length ≥ (ledgerReader "t").limit :=
        Nat.le_of_not_lt hfit
      refine ⟨(ledgerReader "t").tooLong, ?_⟩
      show (ledgerReader "t").read codec (codec.text [smallRecord] ++ [openBrace]) = _
      unfold Reader.read
      rw [LineCodec.text_cons, List.append_assoc, List.cons_append,
        splitLines_line (codec.oneLine _), Reader.readLines, if_pos hlong]

end LedgerLog

end AuditGovernance
