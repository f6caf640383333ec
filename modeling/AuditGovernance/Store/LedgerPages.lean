import AuditGovernance.Domain.Identifiers
import AuditGovernance.Framework.Paging
import AuditGovernance.Store.Postgres

/-! # Sweeps over the ledger

    `ReadLedgerPage` (`internal/store/ledger_page.go`) hands out the cold
    records of a tenant page by page. Reconciliation and projection rebuilds
    keep the cursor it returns and stop at `Done`, while new records arrive:
    the first page fixes how far the sweep goes.

    A sweep is a walk over pairs of a moment and a cursor; every page is read
    from the ledger of its own moment. In a file the ledger only grows at its
    end. In PostgreSQL a transaction that commits late puts its rows in front
    of rows that are already there.
-/

namespace AuditGovernance

open Paging

namespace LedgerPages

/-! ## Section 1: Pages -/

structure LedgerPageCursor where
  after : Int := 0
  through : Int := 0
deriving DecidableEq

structure LedgerPage where
  records : List LedgerRecord := []
  next : LedgerPageCursor
  done : Bool

def maxLedgerPageSize : Int := 100

/-- What `ReadLedgerPage` asks of its arguments. -/
def checkScope (tenantID : String) (cursor : LedgerPageCursor) (limit : Int) : Except Err Unit :=
  if tenantID = "" ∨ cursor.after < 0 ∨ cursor.through < 0 ∨
      (0 < cursor.through ∧ cursor.through < cursor.after) ∨ limit < 1 ∨
      maxLedgerPageSize < limit then
    .error (.invalid "invalid ledger page scope or bounds")
  else validTenantID tenantID

/-- `ledgerRecordsPage`. The end of the page is computed by a difference, so no
    64-bit sum leaves the records. -/
def ledgerRecordsPage (records : List LedgerRecord) (cursor : LedgerPageCursor) (limit : Int) :
    LedgerPage :=
  let through := if cursor.through = 0 then (records.length : Int) else cursor.through
  let endOfSweep := min through records.length
  if endOfSweep ≤ cursor.after then { next := ⟨endOfSweep, through⟩, done := true }
  else
    let size := min limit (endOfSweep - cursor.after)
    { records := (records.drop cursor.after.toNat).take size.toNat
      next := ⟨cursor.after + size, through⟩
      done := cursor.after + size = endOfSweep }

/-- `ReadLedgerPage` of the file store; `none` is a tenant it does not know. -/
def readFilePage (ledger : Option (List LedgerRecord)) (tenantID : String)
    (cursor : LedgerPageCursor) (limit : Int) : Except Err LedgerPage :=
  (checkScope tenantID cursor limit).map fun _ =>
    match ledger with
    | none => { next := cursor, done := true }
    | some records => ledgerRecordsPage records cursor limit

/-- A row of `audit_ledger`, with what `decodeLedgerRecord` and
    `validatePostgresLedgerIdentity` make of it. -/
structure LedgerRow where
  id : Int
  tenantID : String
  decoded : Except Err LedgerRecord

/-- `SELECT COALESCE(MAX(id), 0)`. -/
def horizon (table : List LedgerRow) (tenantID : String) : Int :=
  ((table.filter fun row => row.tenantID = tenantID).map LedgerRow.id).foldl max 0

/-- The rows of one page, from a table in `id` order. -/
def selectRows (table : List LedgerRow) (tenantID : String) (after through : Int) (limit : Nat) :
    List LedgerRow :=
  (table.filter fun row => row.tenantID = tenantID ∧ after < row.id ∧ row.id ≤ through).take limit

/-- The loop over the rows of a page. -/
def scanRows : List LedgerRow → LedgerPage → Except Err LedgerPage
  | [], page => .ok page
  | row :: rest, page =>
    match row.decoded with
    | .error err => .error err
    | .ok record =>
      if row.id ≤ page.next.after ∨ page.next.through < row.id then
        .error (.plain "invalid ledger page ordering")
      else
        scanRows rest { page with
          records := page.records ++ [record], next := { page.next with after := row.id } }

/-- `readLedgerPage` of the split PostgreSQL store. -/
def readLedgerPage (table : List LedgerRow) (tenantID : String) (cursor : LedgerPageCursor)
    (limit : Int) : Except Err LedgerPage :=
  let through := if cursor.through = 0 then horizon table tenantID else cursor.through
  if through ≤ cursor.after then .ok { next := ⟨through, through⟩, done := true }
  else
    (scanRows (selectRows table tenantID cursor.after through limit.toNat)
      { next := ⟨cursor.after, through⟩, done := false }).map fun page =>
      { page with done := page.records.length < limit ∨ page.next.after = through }

/-- `ReadLedgerPage` of the split PostgreSQL store. -/
def readPostgresPage (table : List LedgerRow) (tenantID : String) (cursor : LedgerPageCursor)
    (limit : Int) : Except Err LedgerPage :=
  match checkScope tenantID cursor limit with
  | .error err => .error err
  | .ok () => readLedgerPage table tenantID cursor limit

/-- The walk of a caller: each page at the next moment, up to `Done`. -/
def sweep (read : Nat → LedgerPageCursor → Except Err LedgerPage) (place : Nat × LedgerPageCursor) :
    Except Err (Page LedgerRecord (Nat × LedgerPageCursor)) :=
  (read place.1 place.2).map fun page =>
    ⟨page.records, if page.done then none else some (place.1 + 1, page.next)⟩

/-- What a caller hands in besides the cursor. -/
structure Admissible (tenantID : String) (limit : Int) : Prop where
  named : tenantID ≠ ""
  valid : validTenantID tenantID = .ok ()
  positive : 1 ≤ limit
  bounded : limit ≤ maxLedgerPageSize

theorem Admissible.checkScope {tenantID : String} {limit : Int} (h : Admissible tenantID limit)
    {after through : Int} (hafter : 0 ≤ after) (hthrough : after ≤ through) :
    LedgerPages.checkScope tenantID ⟨after, through⟩ limit = .ok () := by
  unfold LedgerPages.checkScope
  rw [if_neg, h.valid]
  have := h.positive
  have := h.bounded
  simp only [h.named, false_or, not_or]
  omega

/-- Two places with the same page continue alike. -/
theorem follows_of_eq {read : Nat → LedgerPageCursor → Except Err LedgerPage}
    {place place' : Nat × LedgerPageCursor} {items : List LedgerRecord}
    (h : sweep read place = sweep read place') (hfollows : Follows (sweep read) place' items) :
    Follows (sweep read) place items := by
  cases hfollows with
  | last hpage => exact .last (h.trans hpage)
  | more hpage hrest => exact .more (h.trans hpage) hrest

/-! ## Section 2: Files -/

section Files

variable {tenantID : String} {limit : Int} {ledger : Nat → Option (List LedgerRecord)}

/-- Moments later, the ledger still starts with what it held. -/
theorem ledger_later (hgrows : ∀ k records, ledger k = some records →
      ∃ more, ledger (k + 1) = some (records ++ more))
    {start : Nat} {records : List LedgerRecord} (h : ledger start = some records) (d : Nat) :
    ∃ more, ledger (start + d) = some (records ++ more) := by
  induction d with
  | zero => exact ⟨[], by rw [List.append_nil]; exact h⟩
  | succ d ih =>
    obtain ⟨more, hmore⟩ := ih
    obtain ⟨more', hmore'⟩ := hgrows _ _ hmore
    exact ⟨more ++ more', by rw [← List.append_assoc]; exact hmore'⟩

/-- A page behind `after` of a sweep over the first `n` records. -/
theorem ledgerRecordsPage_inside {records : List LedgerRecord} (more : List LedgerRecord)
    {after : Nat} (hafter : after < records.length) (hlimit : 1 ≤ limit) :
    ∃ size : Nat, 0 < size ∧ after + size ≤ records.length ∧
      ledgerRecordsPage (records ++ more) ⟨after, records.length⟩ limit =
        { records := (records.drop after).take size
          next := ⟨((after + size : Nat) : Int), records.length⟩
          done := after + size = records.length } := by
  obtain ⟨size, hsize⟩ : ∃ size : Nat, (size : Int) = min limit (records.length - after : Int) :=
    ⟨(min limit (records.length - after : Int)).toNat, by omega⟩
  refine ⟨size, by omega, by omega, ?_⟩
  have hend : min (records.length : Int) ((records ++ more).length : Int) = records.length := by
    rw [List.length_append]
    omega
  unfold ledgerRecordsPage
  simp only [if_neg (show ¬ (records.length : Int) = 0 by omega)]
  rw [hend, if_neg (by omega), ← hsize, Int.toNat_natCast, Int.toNat_natCast,
    List.drop_append_of_le_length (by omega),
    List.take_append_of_le_length (by rw [List.length_drop]; omega)]
  congr 1
  exact decide_eq_decide.2 (by omega)

/-- **Files.** However the ledger grows between its pages, a sweep ends, and it
    has returned the records that were there at its first page, each once and
    in their order. -/
theorem file_sweep (hargs : Admissible tenantID limit)
    (hgrows : ∀ k records, ledger k = some records →
      ∃ more, ledger (k + 1) = some (records ++ more)) (start : Nat) :
    Follows (sweep fun k cursor => readFilePage (ledger k) tenantID cursor limit) (start, {})
      ((ledger start).getD []) := by
  cases hstart : ledger start with
  | none =>
    apply Follows.last
    simp only [sweep, readFilePage, hargs.checkScope (le_refl 0) (le_refl 0), hstart]
    rfl
  | some records =>
    -- The rest of the sweep, from any position and moment.
    have hrest (left : Nat) : ∀ d after, after < records.length → records.length - after = left →
        Follows (sweep fun k cursor => readFilePage (ledger k) tenantID cursor limit)
          (start + d, ⟨after, records.length⟩) (records.drop after) := by
      induction left using Nat.strong_induction_on with
      | _ left ih =>
        intro d after hafter hleft
        obtain ⟨more, hmore⟩ := ledger_later hgrows hstart d
        have hcheck := hargs.checkScope (Int.natCast_nonneg after) (Int.ofNat_le.2 hafter.le)
        obtain ⟨size, hsize, hfits, hpage⟩ :=
          ledgerRecordsPage_inside more hafter hargs.positive
        by_cases hdone : after + size = records.length
        · have hall : (records.drop after).take size = records.drop after :=
            List.take_of_length_le (by rw [List.length_drop]; omega)
          rw [← hall]
          apply Follows.last
          simp only [sweep, readFilePage, hcheck, hmore, hpage, hdone]
          rfl
        · rw [← List.take_append_drop size (records.drop after), List.drop_drop]
          refine Follows.more ?_ (ih _ (by omega) (d + 1) (after + size) (by omega) rfl)
          simp only [sweep, readFilePage, hcheck, hmore, hpage, hdone]
          rfl
    -- The first page reads how long the ledger is.
    have hfirst : ledgerRecordsPage records {} limit =
        ledgerRecordsPage records ⟨0, records.length⟩ limit := by
      unfold ledgerRecordsPage
      simp only [if_true, ite_self]
    have hcheck (through : Int) (hthrough : 0 ≤ through) := hargs.checkScope le_rfl hthrough
    rcases Nat.eq_zero_or_pos records.length with hnil | hpos
    · rw [List.eq_nil_of_length_eq_zero hnil] at hstart ⊢
      apply Follows.last
      simp only [sweep, readFilePage, hcheck 0 le_rfl, hstart]
      rfl
    · refine follows_of_eq ?_ (hrest _ 0 0 hpos rfl)
      simp only [sweep, readFilePage, hcheck 0 le_rfl, hcheck records.length (by omega), hstart,
        Nat.add_zero, Nat.cast_zero, hfirst]

def noteRecord : LedgerRecord := receiptRecord 1 { eventID := "e", tenantID := "acme" }

theorem acme_admissible : Admissible "acme" 2 :=
  ⟨by decide, by decide +kernel, by decide, by decide⟩

/-- Three records are swept two at a time while a record arrives at every moment. -/
theorem file_sweep_acme :
    Follows (sweep fun k cursor =>
        readFilePage (some (List.replicate (3 + k) noteRecord)) "acme" cursor 2) (0, {})
      ((some (List.replicate (3 + 0) noteRecord)).getD []) := by
  refine @file_sweep "acme" 2 (fun k => some (List.replicate (3 + k) noteRecord))
    acme_admissible ?_ 0
  intro k records hrecords
  cases hrecords
  exact ⟨[noteRecord], by rw [← List.replicate_succ']; rfl⟩

end Files

/-! ## Section 3: PostgreSQL -/

section Postgres

variable {tenantID : String} {limit : Int} {after through : Int} {rows table : List LedgerRow}

/-- Rows in `id` order. -/
def InOrder (rows : List LedgerRow) : Prop := rows.Pairwise (fun a b => a.id < b.id)

/-- The position behind the rows of a page. -/
def lastID (after : Int) (rows : List LedgerRow) : Int := rows.foldl (fun _ row => row.id) after

theorem lastID_cases (after : Int) (rows : List LedgerRow) :
    lastID after rows = after ∧ rows = [] ∨ ∃ row ∈ rows, lastID after rows = row.id := by
  induction rows generalizing after with
  | nil => exact .inl ⟨rfl, rfl⟩
  | cons row rest ih =>
    refine .inr ?_
    rcases ih row.id with ⟨hlast, -⟩ | ⟨r, hr, hlast⟩
    · exact ⟨row, List.mem_cons_self, hlast⟩
    · exact ⟨r, List.mem_cons_of_mem _ hr, hlast⟩

theorem le_lastID (h : InOrder rows) : ∀ row ∈ rows, row.id ≤ lastID after rows := by
  induction rows generalizing after with
  | nil => simp
  | cons row rest ih =>
    obtain ⟨hhead, hrest⟩ := List.pairwise_cons.1 h
    intro r hr
    show r.id ≤ lastID row.id rest
    rcases List.mem_cons.1 hr with rfl | hr
    · rcases lastID_cases r.id rest with ⟨hlast, -⟩ | ⟨b, hb, hlast⟩
      · exact hlast.ge
      · rw [hlast]
        exact (hhead b hb).le
    · exact ih hrest r hr

/-- Rows in order behind the cursor are scanned to the end. -/
theorem scanRows_ok (horder : InOrder rows)
    (hrange : ∀ row ∈ rows, after < row.id ∧ row.id ≤ through)
    (hdecoded : ∀ row ∈ rows, ∃ record, row.decoded = .ok record) (records : List LedgerRecord) :
    ∃ more, rows.map LedgerRow.decoded = more.map .ok ∧
      scanRows rows { records := records, next := ⟨after, through⟩, done := false } =
        .ok { records := records ++ more, next := ⟨lastID after rows, through⟩, done := false } := by
  induction rows generalizing after records with
  | nil => exact ⟨[], rfl, by rw [List.append_nil]; rfl⟩
  | cons row rest ih =>
    obtain ⟨hhead, hrest⟩ := List.pairwise_cons.1 horder
    obtain ⟨hlow, hhigh⟩ := hrange row List.mem_cons_self
    obtain ⟨record, hrecord⟩ := hdecoded row List.mem_cons_self
    obtain ⟨more, hmore, hscan⟩ := ih hrest
      (fun r hr => ⟨hhead r hr, (hrange r (List.mem_cons_of_mem _ hr)).2⟩)
      (fun r hr => hdecoded r (List.mem_cons_of_mem _ hr)) (records ++ [record])
    refine ⟨record :: more, by rw [List.map_cons, hrecord, hmore]; rfl, ?_⟩
    rw [scanRows, hrecord]
    simp only
    rw [if_neg (by omega), hscan, List.append_assoc]
    rfl

/-- Rows that a full page leaves out lie behind it. -/
theorem selectRows_complete (horder : InOrder table) {row : LedgerRow} (hrow : row ∈ table)
    (htenant : row.tenantID = tenantID) (hlow : after < row.id)
    (hhigh : row.id ≤ through) :
    row ∈ selectRows table tenantID after through limit.toNat ∨
      ((selectRows table tenantID after through limit.toNat).length = limit.toNat ∧
        lastID after (selectRows table tenantID after through limit.toNat) < row.id) := by
  unfold selectRows
  generalize hsel : table.filter _ = selected
  have hmem : row ∈ selected := by
    rw [← hsel, List.mem_filter]
    exact ⟨hrow, by simp [htenant, hlow, hhigh]⟩
  have hselected : InOrder selected := hsel ▸ horder.sublist List.filter_sublist
  rw [← List.take_append_drop limit.toNat selected] at hmem hselected
  rcases List.mem_append.1 hmem with hin | hout
  · exact .inl hin
  · refine .inr ⟨?_, ?_⟩
    · rw [List.length_take]
      have := List.length_pos_of_mem hout
      rw [List.length_drop] at this
      omega
    · rcases lastID_cases after (selected.take limit.toNat) with ⟨hlast, -⟩ | ⟨r, hr, hlast⟩
      · omega
      · rw [hlast]
        exact (List.pairwise_append.1 hselected).2.2 r hr row hout

theorem mem_selectRows {row : LedgerRow} {n : Nat}
    (h : row ∈ selectRows table tenantID after through n) :
    row ∈ table ∧ row.tenantID = tenantID ∧ after < row.id ∧ row.id ≤ through := by
  have hmem := List.mem_filter.1 (List.mem_of_mem_take h)
  exact ⟨hmem.1, of_decide_eq_true hmem.2⟩

/-- The tables of a sweep: in `id` order with positive ids, growing, and with
    rows of the tenant that decode. -/
structure Growing (tenantID : String) (table : Nat → List LedgerRow) : Prop where
  inOrder : ∀ k, InOrder (table k)
  positive : ∀ k, ∀ row ∈ table k, 0 < row.id
  kept : ∀ k, table k ⊆ table (k + 1)
  decoded : ∀ k, ∀ row ∈ table k, row.tenantID = tenantID → ∃ record, row.decoded = .ok record

/-- What a sweep from `after` at moment `k` has to return. -/
structure Swept (tenantID : String) (table : Nat → List LedgerRow) (k : Nat) (after through : Int)
    (items : List LedgerRecord) (visited : List LedgerRow) : Prop where
  decoded : visited.map LedgerRow.decoded = items.map .ok
  inOrder : InOrder visited
  scope : ∀ row ∈ visited, row.tenantID = tenantID ∧ after < row.id ∧ row.id ≤ through ∧
    ∃ j ≥ k, row ∈ table j
  complete : ∀ row ∈ table k, row.tenantID = tenantID → after < row.id → row.id ≤ through →
    row ∈ visited

/-- The sweep from any position and moment. -/
theorem sweep_from {table : Nat → List LedgerRow} (hargs : Admissible tenantID limit)
    (h : Growing tenantID table) (hthrough : 0 < through) (left : Nat) :
    ∀ k (after : Int), 0 ≤ after → after ≤ through → (through - after).toNat = left →
      ∃ items visited, Swept tenantID table k after through items visited ∧
        Follows (sweep fun k cursor => readPostgresPage (table k) tenantID cursor limit)
          (k, ⟨after, through⟩) items := by
  induction left using Nat.strong_induction_on with
  | _ left ih =>
    intro k after hafter hle hleft
    have hcheck := hargs.checkScope hafter hle
    have hpositive := hargs.positive
    rcases Int.lt_or_le after through with hinside | hpast
    · -- The page of this moment.
      generalize hrows : selectRows (table k) tenantID after through limit.toNat = rows
      have hmem : ∀ row ∈ rows, row ∈ table k ∧ row.tenantID = tenantID ∧ after < row.id ∧
          row.id ≤ through := fun row hrow => mem_selectRows (hrows ▸ hrow)
      have horder : InOrder rows :=
        hrows ▸ (h.inOrder k).sublist ((List.take_sublist _ _).trans List.filter_sublist)
      have hcomplete : ∀ row ∈ table k, row.tenantID = tenantID → after < row.id →
          row.id ≤ through → row ∈ rows ∨ (rows.length = limit.toNat ∧ lastID after rows < row.id) :=
        fun row hrow ht hl hh => hrows ▸ selectRows_complete (h.inOrder k) hrow ht hl hh
      obtain ⟨more, hmore, hscan⟩ := scanRows_ok horder
        (fun row hrow => (hmem row hrow).2.2)
        (fun row hrow => h.decoded k row (hmem row hrow).1 (hmem row hrow).2.1) []
      have hlength : more.length = rows.length := by
        simpa using (congrArg List.length hmore).symm
      have hpage : readPostgresPage (table k) tenantID ⟨after, through⟩ limit =
          .ok { records := more, next := ⟨lastID after rows, through⟩
                done := (more.length : Int) < limit ∨ lastID after rows = through } := by
        simp only [readPostgresPage, hcheck, readLedgerPage, if_neg hthrough.ne',
          if_neg (Int.not_le.2 hinside), hrows, hscan, List.nil_append]
        rfl
      by_cases hdone : (more.length : Int) < limit ∨ lastID after rows = through
      · refine ⟨more, rows, ⟨hmore, horder, fun row hrow => ?_, fun row hrow ht hl hh => ?_⟩, .last ?_⟩
        · obtain ⟨htable, ht, hl, hh⟩ := hmem row hrow
          exact ⟨ht, hl, hh, k, le_rfl, htable⟩
        · rcases hcomplete row hrow ht hl hh with hin | ⟨hfull, hbehind⟩
          · exact hin
          · omega
        · simp only [sweep, hpage, decide_eq_true hdone]
          rfl
      · rw [not_or] at hdone
        -- A full page moves the position.
        have hmoved : after < lastID after rows ∧ lastID after rows ≤ through := by
          rcases lastID_cases after rows with ⟨-, hnil⟩ | ⟨row, hrow, hlast⟩
          · rw [hnil] at hlength
            simp only [List.length_nil] at hlength
            omega
          · rw [hlast]
            exact (hmem row hrow).2.2
        obtain ⟨items, visited, hswept, hfollows⟩ := ih _ (by omega) (k + 1) (lastID after rows)
          (by omega) hmoved.2 rfl
        refine ⟨more ++ items, rows ++ visited, ⟨?_, ?_, ?_, ?_⟩, .more ?_ hfollows⟩
        · rw [List.map_append, List.map_append, hmore, hswept.decoded]
        · refine List.pairwise_append.2 ⟨horder, hswept.inOrder, fun a ha b hb => ?_⟩
          exact lt_of_le_of_lt (le_lastID horder a ha) (hswept.scope b hb).2.1
        · intro row hrow
          rcases List.mem_append.1 hrow with hrow | hrow
          · obtain ⟨htable, ht, hl, hh⟩ := hmem row hrow
            exact ⟨ht, hl, hh, k, le_rfl, htable⟩
          · obtain ⟨ht, hl, hh, j, hj, htable⟩ := hswept.scope row hrow
            exact ⟨ht, by omega, hh, j, by omega, htable⟩
        · intro row hrow ht hl hh
          rcases hcomplete row hrow ht hl hh with hin | ⟨-, hbehind⟩
          · exact List.mem_append_left _ hin
          · exact List.mem_append_right _ (hswept.complete row (h.kept k hrow) ht hbehind hh)
        · simp only [sweep, hpage]
          rw [decide_eq_false (by rw [not_or]; exact hdone)]
          rfl
    · refine ⟨[], [], ⟨rfl, .nil, by simp, fun row _ _ hl hh => by omega⟩, .last ?_⟩
      simp only [sweep, readPostgresPage, hcheck, readLedgerPage, if_neg hthrough.ne', if_pos hpast]
      rfl

theorem le_foldl_max (ids : List Int) (m : Int) :
    m ≤ ids.foldl max m ∧ ∀ id ∈ ids, id ≤ ids.foldl max m := by
  induction ids generalizing m with
  | nil => simp
  | cons id rest ih =>
    obtain ⟨hstart, hall⟩ := ih (max m id)
    simp only [List.foldl_cons, List.mem_cons, forall_eq_or_imp]
    exact ⟨by omega, by omega, hall⟩

theorem le_horizon {row : LedgerRow} (hrow : row ∈ table) (htenant : row.tenantID = tenantID) :
    row.id ≤ horizon table tenantID :=
  (le_foldl_max _ 0).2 _ (List.mem_map_of_mem (List.mem_filter.2 ⟨hrow, decide_eq_true htenant⟩))

/-- **PostgreSQL.** Whatever commits between its pages, a sweep ends. The rows
    behind what it has returned are in `id` order, so none came twice; they
    were all in the table at some moment, belong to the tenant and lie within
    the horizon of the first page; and every row of the tenant that was there
    at the first page is among them. -/
theorem postgres_sweep {table : Nat → List LedgerRow} (hargs : Admissible tenantID limit)
    (h : Growing tenantID table) (start : Nat) :
    ∃ items visited,
      Follows (sweep fun k cursor => readPostgresPage (table k) tenantID cursor limit)
        (start, {}) items ∧
      visited.map LedgerRow.decoded = items.map .ok ∧ InOrder visited ∧
      (∀ row ∈ visited, row.tenantID = tenantID ∧ row.id ≤ horizon (table start) tenantID ∧
        ∃ j ≥ start, row ∈ table j) ∧
      ∀ row ∈ table start, row.tenantID = tenantID → row ∈ visited := by
  have hcheck (through : Int) (hthrough : 0 ≤ through) := hargs.checkScope le_rfl hthrough
  have hnonneg : 0 ≤ horizon (table start) tenantID := (le_foldl_max _ 0).1
  rcases Int.lt_or_eq_of_le hnonneg with hpos | hzero
  · obtain ⟨items, visited, hswept, hfollows⟩ :=
      sweep_from hargs h hpos _ start 0 le_rfl hnonneg rfl
    refine ⟨items, visited, follows_of_eq ?_ hfollows, hswept.decoded, hswept.inOrder,
      fun row hrow => ?_, fun row hrow htenant => ?_⟩
    · -- The first page finds the horizon that the others are given.
      simp only [sweep, readPostgresPage, hcheck 0 le_rfl, hcheck _ hnonneg, readLedgerPage,
        if_neg hpos.ne', if_true]
    · obtain ⟨ht, -, hh, hseen⟩ := hswept.scope row hrow
      exact ⟨ht, hh, hseen⟩
    · exact hswept.complete row hrow htenant (h.positive start row hrow) (le_horizon hrow htenant)
  · -- Without a row of the tenant the first page is the last.
    refine ⟨[], [], .last ?_, rfl, .nil, by simp, fun row hrow htenant => ?_⟩
    · simp only [sweep, readPostgresPage, hcheck 0 le_rfl, readLedgerPage, if_true, ← hzero,
        le_refl]
      rfl
    · have := h.positive start row hrow
      have := le_horizon hrow htenant
      omega

/-- Rows 1 and 3 are there; row 2 commits late. -/
def lateCommit (k : Nat) : List LedgerRow :=
  if k = 0 then [⟨1, "acme", .ok noteRecord⟩, ⟨3, "acme", .ok noteRecord⟩]
  else [⟨1, "acme", .ok noteRecord⟩, ⟨2, "acme", .ok noteRecord⟩, ⟨3, "acme", .ok noteRecord⟩]

theorem postgres_sweep_lateCommit :
    ∃ items visited,
      Follows (sweep fun k cursor => readPostgresPage (lateCommit k) "acme" cursor 2)
        (0, {}) items ∧
      visited.map LedgerRow.decoded = items.map .ok ∧ InOrder visited ∧
      (∀ row ∈ visited, row.tenantID = "acme" ∧ row.id ≤ horizon (lateCommit 0) "acme" ∧
        ∃ j ≥ 0, row ∈ lateCommit j) ∧
      ∀ row ∈ lateCommit 0, row.tenantID = "acme" → row ∈ visited := by
  refine postgres_sweep acme_admissible ⟨fun k => ?_, fun k => ?_, fun k => ?_, fun k => ?_⟩ 0
  · unfold lateCommit InOrder
    split <;> simp
  · unfold lateCommit
    split <;> simp
  · unfold lateCommit
    split <;> simp
  · unfold lateCommit
    split <;> simp

end Postgres

end LedgerPages

end AuditGovernance
