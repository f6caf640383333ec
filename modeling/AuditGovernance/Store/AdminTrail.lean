import AuditGovernance.Domain.JsonLines
import AuditGovernance.Domain.Timestamp
import AuditGovernance.Framework.Transition

/-! # The admin trail file

    The read self-audit trail of a file-backed store
    (`internal/store/trail.go`): one JSON line per fact, appended and synced,
    compacted to a watermark, and read line by line. A reader drops an
    unterminated last line and refuses any other line it cannot decode, such
    as two lines that a failed append has joined (`trail_readable`).

    The lock makes each call one step. Covered: failing writes at any byte,
    failing syncs, every place where a compaction can fail, reopened stores.
    Not covered: writes that are lost after their sync.
-/

namespace AuditGovernance.AdminTrail

open LineLog Transition

/-! ## Section 1: Facts on lines -/

/-- The members of a fact in the order of the struct. -/
def fieldsOf (a : AdminAction) : List (String × String) :=
  [("id", a.id), ("tenant_id", a.tenantID), ("actor", a.actor), ("action", a.action),
   ("target_type", a.targetType), ("target_id", a.targetID), ("detail", a.detail),
   ("created_at", Timestamp.format a.createdAt)]

/-- The members with `omitempty`. -/
def omitEmpty : List String := ["tenant_id", "target_type", "target_id", "detail"]

/-- A member is written if it is not empty, or not optional. -/
def written (p : String × String) : Bool := p.2 ≠ "" || p.1 ∉ omitEmpty

/-- The JSON object of a fact. -/
def toJson (a : AdminAction) : Json := .obj (texts ((fieldsOf a).filter written))

/-- The line of a fact, without its newline. -/
def body (a : AdminAction) : Bytes := bytesOf (toJson a).toText

def line (a : AdminAction) : Bytes := body a ++ [newline]

/-- A time field of a struct. -/
def structTime (name : String) (fields : List (String × Json)) : Option Time :=
  (fields.filter (fun p => p.1.toLower = name)).foldl
    (fun time p =>
      match p.2 with
      | .null => time
      | .str text => time.bind (fun _ => Timestamp.parse text)
      | _ => none)
    (some 0)

/-- `json.Unmarshal` into a fact. -/
def readFact (line : Bytes) : Option AdminAction :=
  match jsonOf line with
  | some .null => some {}
  | some (.obj fields) => do
    let id ← structText "id" fields
    let tenantID ← structText "tenant_id" fields
    let actor ← structText "actor" fields
    let action ← structText "action" fields
    let targetType ← structText "target_type" fields
    let targetID ← structText "target_id" fields
    let detail ← structText "detail" fields
    let createdAt ← structTime "created_at" fields
    some { id := id, tenantID := tenantID, actor := actor, action := action
           targetType := targetType, targetID := targetID, detail := detail
           createdAt := createdAt }
  | _ => none

/-- The terminated lines; empty ones are skipped. -/
def readLines : List Bytes → Except Err (List AdminAction)
  | [] => .ok []
  | line :: rest =>
    if line = [] then readLines rest
    else
      match readFact line with
      | none => .error (.plain "corrupt admin trail line")
      | some fact => (readLines rest).map (fact :: ·)

/-- `readTrailFileLocked`: what follows the last newline does not count. -/
def readTrailFile : Option Bytes → Except Err (List AdminAction)
  | none => .ok []
  | some contents => readLines (segments contents).dropLast

/-- `ReadAdminTrail`, newest first. -/
def readAdminTrail (file : Option Bytes) : Except Err (List AdminAction) :=
  (readTrailFile file).map List.reverse

/-- `trailWatermark`. -/
def trailWatermark (trailCap : Int) : Nat :=
  if trailCap ≤ 0 then 0
  else
    let headroom := if trailCap / 2 < 1 then 1 else trailCap / 2
    if trailCap - headroom ≥ 1 then (trailCap - headroom).toNat else 1

/-- `countJSONLLines`. -/
def countJSONLLines (contents : Bytes) : Nat := contents.count newline

/-! ## Section 2: Calls -/

/-- Where `ensureTrailFile` fails. -/
inductive EnsureFault where
  /-- Before the lines are counted. -/
  | early
  /-- Before the file is opened. -/
  | opening
  /-- After the file was created. -/
  | creating

/-- Where `compactTrail` fails. -/
inductive CompactFault where
  /-- Before the rename. -/
  | writing
  /-- After the rename: directory sync or close. -/
  | renamed
  /-- Opening the new file. -/
  | reopening

/-- What goes wrong during an append. -/
structure Faults where
  ensure : Option EnsureFault := none
  /-- The write stops after this many bytes. -/
  write : Option Nat := none
  sync : Bool := false
  compact : Option CompactFault := none

/-- The trail and the memory of the process that writes it. -/
structure Trail where
  file : Option Bytes := none
  /-- `trailFile != nil`. -/
  opened : Bool := false
  counted : Bool := false
  count : Nat := 0
  /-- Every fact whose line was written, and whether its append returned
      nil. -/
  history : List (AdminAction × Bool) := []
  /-- How many of the oldest facts compactions have dropped. -/
  dropped : Nat := 0

namespace Trail

def contents (t : Trail) : Bytes := t.file.getD []

/-- `ensureTrailFile`; the second component is success. -/
def ensureTrailFile (t : Trail) (fault : Option EnsureFault) : Trail × Bool :=
  if t.opened then (t, true)
  else
    -- a file that is not there leaves the count as it is
    let seeded := if t.counted then t else
      { t with count := (t.file.map countJSONLLines).getD t.count, counted := true }
    let created := { seeded with file := some t.contents }
    match fault with
    | some .early => (t, false)
    | some .opening => (seeded, false)
    | some .creating => (created, false)
    | none => ({ created with opened := true }, true)

/-- `compactTrail`. -/
def compactTrail (t : Trail) (keepCount : Nat) (fault : Option CompactFault) : Trail × Bool :=
  match readTrailFile t.file with
  | .error _ => (t, false)
  | .ok facts =>
    if facts.length ≤ keepCount then ({ t with count := facts.length }, true)
    else
      let keep := facts.drop (facts.length - keepCount)
      let replaced := { t with
        file := some (ofLines (keep.map body))
        opened := false
        dropped := t.history.length - keepCount }
      match fault with
      | some .writing => (t, false)
      | some .renamed => (replaced, false)
      | some .reopening => (replaced, false)
      | none => ({ replaced with opened := true, count := keep.length }, true)

/-- The append of the last fact returned nil. -/
def acknowledge (t : Trail) : Trail :=
  { t with history := t.history.dropLast ++ (t.history.getLast?.map (fun p => (p.1, true))).toList }

/-- The end of `AppendAdminFact`, after write and sync. -/
def retain (t : Trail) (trailCap : Int) (fault : Option CompactFault) : Trail :=
  let counted := { t with count := t.count + 1 }
  if 0 < trailCap ∧ trailCap < counted.count then
    match counted.compactTrail (trailWatermark trailCap) fault with
    | (compacted, true) => compacted.acknowledge
    | (compacted, false) => compacted
  else counted.acknowledge

/-- `AppendAdminFact`. -/
def appendAdminFact (t : Trail) (fact : AdminAction) (trailCap : Int) (faults : Faults) : Trail :=
  match t.ensureTrailFile faults.ensure with
  | (ensured, false) => ensured
  | (ensured, true) =>
    -- `json.Marshal` refuses a time without a year
    if ¬ Timestamp.HasYear fact.createdAt then ensured
    else
      match faults.write with
      | some n => { ensured with file := some (ensured.contents ++ (line fact).take n) }
      | none =>
        let appended := { ensured with
          file := some (ensured.contents ++ line fact)
          history := ensured.history ++ [(fact, false)] }
        if faults.sync then appended else appended.retain trailCap faults.compact

end Trail

inductive Action where
  | append (fact : AdminAction) (trailCap : Int) (faults : Faults)
  /-- A new process opens the store. -/
  | reopen

def step (t : Trail) : Action → Option Trail
  | .append fact trailCap faults =>
    -- a write that fails has written a strict prefix
    if ∀ n, faults.write = some n → n < (line fact).length then
      some (t.appendAdminFact fact trailCap faults)
    else none
  | .reopen => some { t with opened := false, counted := false, count := 0 }

/-- A store without a trail file yet. -/
def trails : System Trail Action where
  init := fun t => t = {}
  step := step

/-- Every fact whose append returned nil and that no compaction has dropped is
    read. -/
def Readable (t : Trail) : Prop :=
  ∃ facts, readAdminTrail t.file = .ok facts ∧
    ∀ i fact, t.history[i]? = some (fact, true) → t.dropped ≤ i → fact ∈ facts

/-- **The condition.** An append finds no unterminated line. -/
def AtLineEnd (t : Trail) : Action → Prop
  | .append .. => t.contents = [] ∨ t.contents.getLast? = some newline
  | .reopen => True

instance (t : Trail) : (a : Action) → Decidable (AtLineEnd t a)
  | .append .. => inferInstanceAs (Decidable (t.contents = [] ∨ t.contents.getLast? = some newline))
  | .reopen => isTrue trivial

/-! ## Section 3: A line reads back -/

theorem filter_texts {pairs : List (String × String)} (hlower : ∀ p ∈ pairs, p.1.toLower = p.1)
    (hnodup : (pairs.map Prod.fst).Nodup) (name : String) :
    (texts pairs).filter (fun p => p.1.toLower = name) =
      ((pairs.lookup name).map (fun text => (name, Json.str text))).toList := by
  induction pairs with
  | nil => rfl
  | cons p rest ih =>
    obtain ⟨key, text⟩ := p
    rw [List.map_cons, List.nodup_cons] at hnodup
    have hkey := hlower (key, text) List.mem_cons_self
    have ih := ih (fun q hq => hlower q (List.mem_cons_of_mem _ hq)) hnodup.2
    have hcons : texts ((key, text) :: rest) = (key, Json.str text) :: texts rest := rfl
    rw [hcons]
    by_cases hname : key = name
    · subst hname
      have habsent : rest.lookup key = none := by
        rw [List.lookup_eq_none_iff]
        intro q hq
        rw [bne_iff_ne]
        rintro rfl
        exact hnodup.1 (List.mem_map.2 ⟨q, hq, rfl⟩)
      rw [habsent] at ih
      rw [List.filter_cons_of_pos (by simpa using hkey), ih, List.lookup_cons_self]
      rfl
    · have hne : ¬ key.toLower = name := fun heq => hname (hkey.symm.trans heq)
      rw [List.filter_cons_of_neg (by simpa using hne), ih, List.lookup_cons,
        beq_false_of_ne (Ne.symm hname)]

theorem structText_texts {pairs : List (String × String)} (hlower : ∀ p ∈ pairs, p.1.toLower = p.1)
    (hnodup : (pairs.map Prod.fst).Nodup) (name : String) :
    structText name (texts pairs) = some ((pairs.lookup name).getD "") := by
  rw [structText, filter_texts hlower hnodup]
  cases pairs.lookup name with
  | none => rfl
  | some text => rfl

theorem structTime_texts {pairs : List (String × String)} (hlower : ∀ p ∈ pairs, p.1.toLower = p.1)
    (hnodup : (pairs.map Prod.fst).Nodup) {name text : String}
    (h : pairs.lookup name = some text) :
    structTime name (texts pairs) = Timestamp.parse text := by
  rw [structTime, filter_texts hlower hnodup, h]
  rfl

theorem lookup_filter_written {pairs : List (String × String)}
    (hnodup : (pairs.map Prod.fst).Nodup) (name : String) :
    ((pairs.filter written).lookup name).getD "" = (pairs.lookup name).getD "" := by
  induction pairs with
  | nil => rfl
  | cons p rest ih =>
    obtain ⟨key, text⟩ := p
    rw [List.map_cons, List.nodup_cons] at hnodup
    have ih := ih hnodup.2
    by_cases hname : name = key
    · subst hname
      rw [List.lookup_cons_self]
      by_cases hwritten : written (name, text) = true
      · rw [List.filter_cons_of_pos hwritten, List.lookup_cons_self]
      · -- the member is empty, and no other one has its name
        have hempty : text = "" := by
          by_contra hne
          exact hwritten (by simp [written, hne])
        have habsent : rest.lookup name = none := by
          rw [List.lookup_eq_none_iff]
          intro q hq
          rw [bne_iff_ne]
          rintro rfl
          exact hnodup.1 (List.mem_map.2 ⟨q, hq, rfl⟩)
        rw [List.filter_cons_of_neg hwritten, ih, habsent, hempty]
        rfl
    · have hbeq : (name == key) = false := beq_false_of_ne hname
      rw [List.lookup_cons, hbeq]
      by_cases hwritten : written (key, text) = true
      · rw [List.filter_cons_of_pos hwritten, List.lookup_cons, hbeq]
        exact ih
      · rw [List.filter_cons_of_neg hwritten]
        exact ih

theorem names_fieldsOf (a : AdminAction) :
    (fieldsOf a).map Prod.fst =
      ["id", "tenant_id", "actor", "action", "target_type", "target_id", "detail",
        "created_at"] := rfl

theorem nodup_fieldsOf (a : AdminAction) : ((fieldsOf a).map Prod.fst).Nodup := by
  rw [names_fieldsOf]
  decide

theorem lower_fieldsOf (a : AdminAction) : ∀ p ∈ fieldsOf a, p.1.toLower = p.1 := by
  have hnames : ∀ name ∈ ["id", "tenant_id", "actor", "action", "target_type", "target_id",
      "detail", "created_at"], name.toLower = name := by decide +kernel
  intro p hp
  apply hnames
  rw [← names_fieldsOf a]
  exact List.mem_map.2 ⟨p, hp, rfl⟩

theorem lower_written (a : AdminAction) : ∀ p ∈ (fieldsOf a).filter written, p.1.toLower = p.1 :=
  fun p hp => lower_fieldsOf a p (List.mem_filter.1 hp).1

theorem nodup_written (a : AdminAction) : (((fieldsOf a).filter written).map Prod.fst).Nodup :=
  (nodup_fieldsOf a).sublist (List.Sublist.map _ List.filter_sublist)

theorem structText_toJson (a : AdminAction) (name : String) :
    structText name (texts ((fieldsOf a).filter written)) =
      some (((fieldsOf a).lookup name).getD "") := by
  rw [structText_texts (lower_written a) (nodup_written a),
    lookup_filter_written (nodup_fieldsOf a)]

theorem structTime_toJson {a : AdminAction} (h : Timestamp.HasYear a.createdAt) :
    structTime "created_at" (texts ((fieldsOf a).filter written)) = some a.createdAt := by
  have hmem : ("created_at", Timestamp.format a.createdAt) ∈ (fieldsOf a).filter written := by
    rw [List.mem_filter]
    exact ⟨by simp [fieldsOf], by simp [written, omitEmpty]⟩
  have hlookup : ((fieldsOf a).filter written).lookup "created_at" =
      some (Timestamp.format a.createdAt) := by
    obtain ⟨before, after, hsplit⟩ := List.append_of_mem hmem
    have hnodup := nodup_written a
    rw [hsplit, List.map_append, List.map_cons] at hnodup
    rw [List.lookup_eq_some_iff]
    refine ⟨before, after, hsplit, ?_⟩
    intro q hq
    rw [bne_iff_ne]
    exact fun heq => (List.nodup_append.1 hnodup).2.2 q.1 (List.mem_map.2 ⟨q, hq, rfl⟩) _
      List.mem_cons_self heq.symm
  rw [structTime_texts (lower_written a) (nodup_written a) hlookup, Timestamp.parse_format h]

theorem filter_fieldsOf (a : AdminAction) :
    ∃ rest, (fieldsOf a).filter written = ("id", a.id) :: rest :=
  ⟨_, List.filter_cons_of_pos (by simp [written, omitEmpty])⟩

theorem lineBody (a : AdminAction) : LineBody (body a) (toJson a) := by
  obtain ⟨rest, hrest⟩ := filter_fieldsOf a
  rw [body, toJson, hrest]
  exact lineBody_texts _ _

theorem oneLine_body (a : AdminAction) : newline ∉ body a := (lineBody a).oneLine

theorem body_ne_nil (a : AdminAction) : body a ≠ [] := by
  intro h
  have hsolid := (lineBody a).solid
  rw [h] at hsolid
  exact hsolid rfl

/-- **A fact is read back from its line.** -/
theorem readFact_body {a : AdminAction} (h : Timestamp.HasYear a.createdAt) :
    readFact (body a) = some a := by
  rw [readFact, (lineBody a).value, toJson]
  simp only [structText_toJson, structTime_toJson h]
  rfl

theorem readTrailFile_lines {facts : List AdminAction}
    (hyears : ∀ a ∈ facts, Timestamp.HasYear a.createdAt) {fragment : Bytes}
    (hfragment : newline ∉ fragment) :
    readTrailFile (some (ofLines (facts.map body) ++ fragment)) = .ok facts := by
  have hparts : Parts (ofLines (facts.map body) ++ fragment) (facts.map body) fragment := by
    refine ⟨rfl, ?_, hfragment⟩
    intro line hline
    obtain ⟨a, -, rfl⟩ := List.mem_map.1 hline
    exact oneLine_body a
  rw [readTrailFile, hparts.segments, List.dropLast_concat]
  clear hparts
  induction facts with
  | nil => rfl
  | cons a rest ih =>
    rw [List.map_cons, readLines, if_neg (body_ne_nil a),
      readFact_body (hyears a List.mem_cons_self), ih (fun b hb => hyears b (List.mem_cons_of_mem _ hb))]
    rfl

/-! ## Section 4: What every call keeps -/

namespace Trail

/-- The facts that no compaction has dropped, oldest first. -/
def retained (t : Trail) : List AdminAction := (t.history.map Prod.fst).drop t.dropped

end Trail

/-- The file holds the lines of the retained facts and then `fragment`. -/
structure Holds (t : Trail) (fragment : Bytes) : Prop where
  contents : t.contents = ofLines (t.retained.map body) ++ fragment
  fragment : newline ∉ fragment
  years : ∀ a ∈ t.history.map Prod.fst, Timestamp.HasYear a.createdAt
  dropped : t.dropped ≤ t.history.length

/-- `Holds` reads three components of a trail. -/
theorem Holds.of_eq {t t' : Trail} {fragment : Bytes} (h : Holds t fragment)
    (hcontents : t'.contents = t.contents)
    (hhistory : t'.history.map Prod.fst = t.history.map Prod.fst)
    (hdropped : t'.dropped = t.dropped) : Holds t' fragment := by
  have hretained : t'.retained = t.retained := by rw [Trail.retained, hhistory, hdropped, Trail.retained]
  have hlength : t'.history.length = t.history.length := by
    simpa using congrArg List.length hhistory
  refine ⟨?_, h.fragment, ?_, ?_⟩
  · rw [hcontents, hretained, h.contents]
  · rw [hhistory]
    exact h.years
  · rw [hdropped, hlength]
    exact h.dropped

theorem readTrailFile_contents (t : Trail) : readTrailFile t.file = readTrailFile (some t.contents) := by
  rw [Trail.contents]
  cases t.file with
  | none => rfl
  | some bytes => rfl

/-- **A reader gets the retained facts.** -/
theorem Holds.read {t : Trail} {fragment : Bytes} (h : Holds t fragment) :
    readTrailFile t.file = .ok t.retained := by
  rw [readTrailFile_contents, h.contents]
  exact readTrailFile_lines (fun a ha => h.years a (List.mem_of_mem_drop ha)) h.fragment

theorem Holds.readable {t : Trail} {fragment : Bytes} (h : Holds t fragment) : Readable t := by
  refine ⟨t.retained.reverse, ?_, ?_⟩
  · rw [readAdminTrail, h.read]
    rfl
  · intro i fact hfact hi
    rw [List.mem_reverse]
    apply List.mem_of_getElem? (i := i - t.dropped)
    rw [Trail.retained, List.getElem?_drop, List.getElem?_map,
      show t.dropped + (i - t.dropped) = i by omega, hfact]
    rfl

theorem ensureTrailFile_frame (t : Trail) (fault : Option EnsureFault) :
    (t.ensureTrailFile fault).1.contents = t.contents ∧
      (t.ensureTrailFile fault).1.history = t.history ∧
      (t.ensureTrailFile fault).1.dropped = t.dropped := by
  unfold Trail.ensureTrailFile
  split
  · exact ⟨rfl, rfl, rfl⟩
  · -- counting the lines touches the counter only
    by_cases hcounted : t.counted
    · simp only [hcounted]
      rcases fault with _ | fault | fault | fault <;> exact ⟨rfl, rfl, rfl⟩
    · simp only [hcounted]
      rcases fault with _ | fault | fault | fault <;> exact ⟨rfl, rfl, rfl⟩

theorem Holds.ensure {t : Trail} {fragment : Bytes} (h : Holds t fragment)
    (fault : Option EnsureFault) : Holds (t.ensureTrailFile fault).1 fragment := by
  obtain ⟨hcontents, hhistory, hdropped⟩ := ensureTrailFile_frame t fault
  exact h.of_eq hcontents (by rw [hhistory]) hdropped

theorem Holds.retained_drop {t : Trail} {fragment : Bytes} (h : Holds t fragment) {keepCount : Nat}
    (hkeep : keepCount ≤ t.retained.length) :
    t.retained.drop (t.retained.length - keepCount) =
      (t.history.map Prod.fst).drop (t.history.length - keepCount) := by
  have hlength : t.retained.length = t.history.length - t.dropped := by
    rw [Trail.retained, List.length_drop, List.length_map]
  have hle := h.dropped
  rw [hlength] at hkeep ⊢
  rw [Trail.retained, List.drop_drop]
  congr 1
  omega

theorem Trail.acknowledge_facts (t : Trail) :
    t.acknowledge.history.map Prod.fst = t.history.map Prod.fst := by
  rw [Trail.acknowledge]
  dsimp only
  rcases List.eq_nil_or_concat t.history with hnil | ⟨before, last, hlast⟩
  · rw [hnil]
    rfl
  · rw [hlast, List.concat_eq_append, List.dropLast_concat, List.getLast?_concat]
    simp

theorem Holds.acknowledge {t : Trail} {fragment : Bytes} (h : Holds t fragment) :
    Holds t.acknowledge fragment := h.of_eq rfl t.acknowledge_facts rfl

theorem Holds.compact {t : Trail} {fragment : Bytes} (h : Holds t fragment) (keepCount : Nat)
    (fault : Option CompactFault) :
    Holds (t.compactTrail keepCount fault).1 fragment ∨ Holds (t.compactTrail keepCount fault).1 [] := by
  rw [Trail.compactTrail, h.read]
  dsimp only
  by_cases hfew : t.retained.length ≤ keepCount
  · rw [if_pos hfew]
    exact .inl (h.of_eq rfl rfl rfl)
  · rw [if_neg hfew]
    have hkeep := h.retained_drop (Nat.le_of_lt (Nat.lt_of_not_le hfew))
    have hreplaced : ∀ t' : Trail,
        t'.file = some (ofLines ((t.retained.drop (t.retained.length - keepCount)).map body)) →
        t'.history = t.history → t'.dropped = t.history.length - keepCount → Holds t' [] := by
      intro t' hfile hhistory hdropped
      have hretained : t'.retained = (t.history.map Prod.fst).drop (t.history.length - keepCount) := by
        rw [Trail.retained, hhistory, hdropped]
      refine ⟨?_, by simp, ?_, ?_⟩
      · rw [Trail.contents, hfile, hretained, hkeep, List.append_nil]
        rfl
      · rw [hhistory]
        exact h.years
      · rw [hhistory, hdropped]
        omega
    rcases fault with _ | fault | fault | fault
    · exact .inr (hreplaced _ rfl rfl rfl)
    · exact .inl h
    · exact .inr (hreplaced _ rfl rfl rfl)
    · exact .inr (hreplaced _ rfl rfl rfl)

theorem Holds.retain {t : Trail} (h : Holds t []) (trailCap : Int) (fault : Option CompactFault) :
    Holds (t.retain trailCap fault) [] := by
  have hcounted : Holds { t with count := t.count + 1 } [] := h.of_eq rfl rfl rfl
  rw [Trail.retain]
  dsimp only
  split
  · have hcompact := (or_self _).mp (hcounted.compact (trailWatermark trailCap) fault)
    split
    · rename_i heq
      rw [heq] at hcompact
      exact hcompact.acknowledge
    · rename_i heq
      rw [heq] at hcompact
      exact hcompact
  · exact hcounted.acknowledge

theorem Holds.append {t : Trail} (h : Holds t []) {fact : AdminAction}
    (hyear : Timestamp.HasYear fact.createdAt) :
    Holds { t with file := some (t.contents ++ line fact), history := t.history ++ [(fact, false)] }
      [] := by
  refine ⟨?_, by simp, ?_, ?_⟩
  · have hdropped : t.dropped ≤ (t.history.map Prod.fst).length := by simpa using h.dropped
    simp only [Trail.contents, Trail.retained, List.map_append, List.map_cons, List.map_nil,
      Option.getD_some, List.drop_append_of_le_length hdropped, ofLines_append]
    have hcontents := h.contents
    rw [Trail.contents, Trail.retained, List.append_nil] at hcontents
    rw [hcontents, line, ofLines_cons, ofLines_nil, List.append_nil]
  · intro a ha
    rw [List.map_append, List.mem_append] at ha
    rcases ha with ha | ha
    · exact h.years a ha
    · rw [List.mem_singleton.1 ha]
      exact hyear
  · have := h.dropped
    simp only [List.length_append, List.length_singleton]
    omega

theorem Holds.append_cut {t : Trail} (h : Holds t []) {fact : AdminAction} {n : Nat}
    (hn : n < (line fact).length) :
    Holds { t with file := some (t.contents ++ (line fact).take n) } ((line fact).take n) := by
  refine ⟨?_, ?_, h.years, h.dropped⟩
  · have hcontents := h.contents
    rw [List.append_nil] at hcontents
    rw [hcontents]
    rfl
  · intro hmem
    have hle : n ≤ (body fact).length := by
      rw [line, List.length_append, List.length_singleton] at hn
      omega
    rw [line, List.take_append_of_le_length hle] at hmem
    exact oneLine_body fact (List.mem_of_mem_take hmem)

/-! ## Section 5: Runs -/

theorem Holds.at_line_end {t : Trail} {fragment : Bytes} (h : Holds t fragment)
    (hend : t.contents = [] ∨ t.contents.getLast? = some newline) : Holds t [] := by
  suffices hnil : fragment = [] by
    rw [hnil] at h
    exact h
  rw [h.contents] at hend
  rcases hend with hempty | hlast
  · exact (List.append_eq_nil_iff.1 hempty).2
  · by_contra hne
    rw [List.getLast?_append_of_ne_nil _ hne] at hlast
    exact h.fragment (List.mem_of_getLast? hlast)

theorem appendAdminFact_holds {t : Trail} (h : Holds t []) {fact : AdminAction} (trailCap : Int)
    {faults : Faults} (hwrite : ∀ n, faults.write = some n → n < (line fact).length) :
    ∃ fragment, Holds (t.appendAdminFact fact trailCap faults) fragment := by
  have hensured := h.ensure faults.ensure
  rw [Trail.appendAdminFact]
  generalize t.ensureTrailFile faults.ensure = result at hensured
  obtain ⟨ensured, success⟩ := result
  cases success with
  | false => exact ⟨[], hensured⟩
  | true =>
    dsimp only at hensured ⊢
    by_cases hyear : Timestamp.HasYear fact.createdAt
    · rw [if_neg (not_not_intro hyear)]
      cases hw : faults.write with
      | some n => exact ⟨_, hensured.append_cut (hwrite n hw)⟩
      | none =>
        dsimp only
        split
        · exact ⟨[], hensured.append hyear⟩
        · exact ⟨[], (hensured.append hyear).retain trailCap faults.compact⟩
    · rw [if_pos hyear]
      exact ⟨[], hensured⟩

theorem step_holds {t t' : Trail} {a : Action} (h : ∃ fragment, Holds t fragment)
    (hend : AtLineEnd t a) (hstep : step t a = some t') : ∃ fragment, Holds t' fragment := by
  obtain ⟨fragment, h⟩ := h
  cases a with
  | append fact trailCap faults =>
    rw [step] at hstep
    split at hstep
    · rename_i hwrite
      cases hstep
      exact appendAdminFact_holds (h.at_line_end hend) trailCap hwrite
    · cases hstep
  | reopen =>
    cases hstep
    exact ⟨fragment, h.of_eq rfl rfl rfl⟩

/-- **The trail stays readable.** In every run in which each append finds the
    file empty or at the end of a line, all that was acknowledged and not
    dropped by a compaction is read, whatever else fails. -/
theorem trail_readable {t : Trail} (h : trails.Reach AtLineEnd t) : Readable t := by
  have hholds : ∃ fragment, Holds t fragment := by
    refine System.Reach.invariant (P := fun t => ∃ fragment, Holds t fragment) ?_ ?_ h
    · rintro t rfl
      exact ⟨[], rfl, by simp, by simp, Nat.le_refl 0⟩
    · intro t a t' _ hinv hend hstep
      exact step_holds hinv hend hstep
  obtain ⟨fragment, hholds⟩ := hholds
  exact hholds.readable

/-- The fact of one read. -/
def readOf (id : String) : AdminAction := { id := id, actor := "u", action := "read" }

/-- Two reads with room for one, a torn third, and a new process. -/
def tornLast : List Action :=
  [.append (readOf "a1") 1 {}, .append (readOf "a2") 1 {},
   .append (readOf "a3") 1 { write := some 7 }, .reopen]

theorem tornLast_readable : ∃ t, trails.exec {} tornLast = some t ∧
    t.history.length = 2 ∧ t.dropped = 1 ∧ Readable t := by
  obtain ⟨t, ht⟩ : ∃ t, trails.exec {} tornLast = some t :=
    Option.isSome_iff_exists.1 (by decide +kernel)
  have hreach : trails.Reach AtLineEnd t :=
    System.Reach.exec (.init rfl) (by decide +kernel) ht
  have hcounts : some (t.history.length, t.dropped) = some (2, 1) := by
    rw [← Option.map_some (f := fun t : Trail => (t.history.length, t.dropped)), ← ht]
    decide +kernel
  injection hcounts with hcounts
  exact ⟨t, ht, congrArg Prod.fst hcounts, congrArg Prod.snd hcounts, trail_readable hreach⟩

/-- The second append stops after one byte, the third succeeds. -/
def tornMiddle : List Action :=
  [.append (readOf "a1") 0 {}, .append (readOf "a2") 0 { write := some 1 },
   .append (readOf "a3") 0 {}]

/-- **After a torn append the next one breaks the trail**: it is acknowledged,
    and from then on nothing can be read. -/
theorem torn_append_breaks_trail : ∃ t, trails.Reachable t ∧
    t.history = [(readOf "a1", true), (readOf "a3", true)] ∧ t.dropped = 0 ∧
    readAdminTrail t.file = .error (.plain "corrupt admin trail line") ∧ ¬ Readable t := by
  obtain ⟨t, ht⟩ : ∃ t, trails.exec {} tornMiddle = some t :=
    Option.isSome_iff_exists.1 (by decide +kernel)
  have hstate : some (t.history, t.dropped) =
      some ([(readOf "a1", true), (readOf "a3", true)], 0) := by
    rw [← Option.map_some (f := fun t : Trail => (t.history, t.dropped)), ← ht]
    decide +kernel
  have hread : some (readAdminTrail t.file) =
      some (.error (.plain "corrupt admin trail line")) := by
    rw [← Option.map_some (f := fun t : Trail => readAdminTrail t.file), ← ht]
    decide +kernel
  injection hstate with hstate
  injection hread with hread
  refine ⟨t, System.Reachable.exec (.init rfl) ht, congrArg Prod.fst hstate,
    congrArg Prod.snd hstate, hread, ?_⟩
  rintro ⟨facts, hfacts, -⟩
  rw [hread] at hfacts
  cases hfacts

end AuditGovernance.AdminTrail
