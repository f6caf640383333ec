import AuditGovernance.Projection.Query

/-! # Projection watermarks

    `Watermark` (`internal/projection/confirmed.go`): the longest prefix of a
    stream whose projected rows are linked by their hashes. The database groups
    the rows by sequence; the loop walks the groups in order and stops at the
    first missing sequence, at the first conflict or behind the last group.

    The prefix is described by `Reaches`, which knows the rows as a set. What
    the loop returns is then exactly where the prefix stops and why
    (`watermark_exact`).
-/

namespace AuditGovernance

open Grouping

/-! ## Section 1: The loop -/

/-- `StreamWatermark`. -/
structure StreamWatermark where
  tenantID : String := ""
  streamID : String := ""
  sequence : Nat := 0
  hash : String := ""
  gap : Bool := false
deriving DecidableEq, Inhabited

/-- What `uniqExact` tells apart. -/
def ProjectionRow.variant (r : ProjectionRow) : String × String × String × String :=
  (r.eventID, r.eventHash, r.prevHash, r.envelopeDigest)

/-- One row of the statement. -/
structure SequenceGroup where
  sequence : Nat
  hash : String
  prev : String
  variants : Nat
deriving DecidableEq

/-- A group as the statement returns it; each `any` takes a row of its own. -/
def sequenceGroup (anyHash anyPrev : Choice ProjectionRow) (g : Nat × List ProjectionRow) :
    SequenceGroup where
  sequence := g.1
  hash := (anyHash.pick g.2).eventHash
  prev := (anyPrev.pick g.2).prevHash
  variants := uniqExact ProjectionRow.variant g.2

/-- The rows of the statement, in its order. -/
def sequenceGroups (anyHash anyPrev : Choice ProjectionRow) (rows : List ProjectionRow) :
    List SequenceGroup :=
  ((groups ProjectionRow.sequence rows).map (sequenceGroup anyHash anyPrev)).insertionSort
    (fun a b => a.sequence ≤ b.sequence)

/-- The loop over the returned rows. -/
def scanGroups : StreamWatermark → List SequenceGroup → Except Err StreamWatermark
  | result, [] => .ok result
  | result, g :: rest =>
    if g.variants ≠ 1 then .error errProjectionConflict
    else if g.sequence ≠ result.sequence + 1 then .ok { result with gap := true }
    else if g.hash = "" ∨ g.prev ≠ result.hash then .error errProjectionConflict
    else scanGroups { result with sequence := g.sequence, hash := g.hash } rest

/-- `WHERE tenant_id = ? AND stream_id = ?`. -/
def streamRows (rows : List ProjectionRow) (tenantID streamID : String) : List ProjectionRow :=
  rows.filter (fun r => r.tenantID = tenantID ∧ r.streamID = streamID)

/-- `Watermark`. -/
def watermark (anyHash anyPrev : Choice ProjectionRow) (rows : List ProjectionRow)
    (tenantID streamID : String) : Except Err StreamWatermark :=
  match projectionScope tenantID streamID with
  | .error err => .error err
  | .ok () =>
    if streamID = "" then .error (.invalid "stream id required")
    else
      scanGroups { tenantID := tenantID, streamID := streamID }
        (sequenceGroups anyHash anyPrev (streamRows rows tenantID streamID))

/-! ## Section 2: Linked prefixes -/

/-- All rows at a sequence are one variant. -/
def OneVariant (rows : List ProjectionRow) (n : Nat) : Prop :=
  ∀ r ∈ rows, r.sequence = n → ∀ s ∈ rows, s.sequence = n → r.variant = s.variant

/-- The rows at a sequence lead from one hash to the next. -/
structure LinksTo (rows : List ProjectionRow) (n : Nat) (prev hash : String) : Prop where
  present : ∃ r ∈ rows, r.sequence = n
  single : OneVariant rows n
  hashed : ∀ r ∈ rows, r.sequence = n → r.eventHash = hash
  linked : ∀ r ∈ rows, r.sequence = n → r.prevHash = prev
  named : hash ≠ ""

/-- The rows hold a linked prefix that ends here. -/
inductive Reaches (rows : List ProjectionRow) : Nat → String → Prop where
  | start : Reaches rows 0 ""
  | next {n : Nat} {prev hash : String} : Reaches rows n prev → LinksTo rows (n + 1) prev hash →
      Reaches rows (n + 1) hash

/-- The prefix goes no further. -/
structure StopsAt (rows : List ProjectionRow) (n : Nat) (hash : String) : Prop where
  reached : Reaches rows n hash
  stopped : ∀ next, ¬ LinksTo rows (n + 1) hash next

/-- The smallest sequence beyond one. -/
def FirstAfter (rows : List ProjectionRow) (n m : Nat) : Prop :=
  n < m ∧ (∃ r ∈ rows, r.sequence = m) ∧ ∀ r ∈ rows, n < r.sequence → m ≤ r.sequence

section Prefixes

variable {rows : List ProjectionRow} {n m : Nat} {hash hash' prev : String}

theorem LinksTo.hash_unique (h : LinksTo rows n prev hash) (h' : LinksTo rows n prev hash') :
    hash = hash' := by
  obtain ⟨r, hr, hn⟩ := h.present
  rw [← h.hashed r hr hn, h'.hashed r hr hn]

theorem Reaches.hash_unique (h : Reaches rows n hash) (h' : Reaches rows n hash') :
    hash = hash' := by
  induction h generalizing hash' with
  | start =>
    cases h'
    rfl
  | next _ hlink ih =>
    cases h' with
    | next hreached hlink' =>
      have hprev := ih hreached
      subst hprev
      exact hlink.hash_unique hlink'

theorem Reaches.continues (h : Reaches rows m hash) (hlt : n < m) :
    ∃ prev next, Reaches rows n prev ∧ LinksTo rows (n + 1) prev next := by
  induction h with
  | start => exact absurd hlt (Nat.not_lt_zero n)
  | @next k prev next hreached hlink ih =>
    rcases Nat.lt_succ_iff_lt_or_eq.1 hlt with hbelow | rfl
    · exact ih hbelow
    · exact ⟨prev, next, hreached, hlink⟩

theorem StopsAt.le (h : StopsAt rows n hash) (h' : Reaches rows m hash') : m ≤ n := by
  by_contra hlt
  obtain ⟨prev, next, hreached, hlink⟩ := h'.continues (not_le.1 hlt)
  have heq := h.reached.hash_unique hreached
  subst heq
  exact h.stopped next hlink

theorem StopsAt.unique (h : StopsAt rows n hash) (h' : StopsAt rows m hash') :
    n = m ∧ hash = hash' := by
  have hn : n = m := Nat.le_antisymm (h'.le h.reached) (h.le h'.reached)
  subst hn
  exact ⟨rfl, h.reached.hash_unique h'.reached⟩

theorem FirstAfter.unique {k : Nat} (h : FirstAfter rows n m) (h' : FirstAfter rows n k) :
    m = k := by
  obtain ⟨hlt, ⟨r, hr, hm⟩, hleast⟩ := h
  obtain ⟨hlt', ⟨s, hs, hk⟩, hleast'⟩ := h'
  have h1 := hleast s hs (by omega)
  have h2 := hleast' r hr (by omega)
  omega

end Prefixes

/-! ## Section 3: What the loop returns -/

/-- The prefix ends before a missing sequence: behind all rows, or, with a gap,
    before others of one variant. -/
structure Observed (rows : List ProjectionRow) (n : Nat) (hash : String) (gap : Bool) : Prop where
  reached : Reaches rows n hash
  missing : ∀ r ∈ rows, r.sequence ≠ n + 1
  complete : gap = false → ∀ r ∈ rows, r.sequence ≤ n
  gapped : gap = true → ∃ m, FirstAfter rows n m ∧ OneVariant rows m

/-- The rows behind a reached prefix contradict it or each other: at the next
    sequence, or at the first one behind a gap. -/
def Conflicting (rows : List ProjectionRow) : Prop :=
  ∃ n hash, Reaches rows n hash ∧
    (((∃ r ∈ rows, r.sequence = n + 1) ∧
        (¬ OneVariant rows (n + 1) ∨
          ∃ r ∈ rows, r.sequence = n + 1 ∧ (r.eventHash = "" ∨ r.prevHash ≠ hash))) ∨
      ((∀ r ∈ rows, r.sequence ≠ n + 1) ∧ ∃ m, FirstAfter rows n m ∧ ¬ OneVariant rows m))

section Exits

variable {rows : List ProjectionRow} {n m : Nat} {hash hash' : String} {gap gap' : Bool}

theorem Observed.stops (h : Observed rows n hash gap) : StopsAt rows n hash := by
  refine ⟨h.reached, ?_⟩
  intro next hlink
  obtain ⟨r, hr, hn⟩ := hlink.present
  exact h.missing r hr hn

theorem Observed.unique (h : Observed rows n hash gap) (h' : Observed rows m hash' gap') :
    n = m ∧ hash = hash' ∧ gap = gap' := by
  obtain ⟨rfl, rfl⟩ := h.stops.unique h'.stops
  refine ⟨rfl, rfl, ?_⟩
  have hexclusive : ∀ {a b : Bool}, Observed rows n hash a → Observed rows n hash b →
      a = false → b = true → False := by
    intro a b ha hb hfalse htrue
    obtain ⟨k, ⟨hlt, ⟨r, hr, hk⟩, -⟩, -⟩ := hb.gapped htrue
    have hle := ha.complete hfalse r hr
    omega
  cases gap with
  | false =>
    cases gap' with
    | false => rfl
    | true => exact (hexclusive h h' rfl rfl).elim
  | true =>
    cases gap' with
    | false => exact (hexclusive h' h rfl rfl).elim
    | true => rfl

theorem Observed.not_conflicting (h : Observed rows n hash gap) : ¬ Conflicting rows := by
  rintro ⟨k, reached, hreached, ⟨⟨r, hr, hk⟩, hbad⟩ | ⟨hmissing, l, hfirst, hmany⟩⟩
  · have hstop : StopsAt rows k reached := by
      refine ⟨hreached, ?_⟩
      intro next hlink
      rcases hbad with hmany | ⟨s, hs, hsk, hempty | hprev⟩
      · exact hmany hlink.single
      · exact hlink.named (hlink.hashed s hs hsk ▸ hempty)
      · exact hprev (hlink.linked s hs hsk)
    obtain ⟨rfl, rfl⟩ := h.stops.unique hstop
    exact h.missing r hr hk
  · have hstop : StopsAt rows k reached := by
      refine ⟨hreached, ?_⟩
      intro next hlink
      obtain ⟨s, hs, hsk⟩ := hlink.present
      exact hmissing s hs hsk
    obtain ⟨rfl, rfl⟩ := h.stops.unique hstop
    obtain ⟨hlt, ⟨s, hs, hsl⟩, -⟩ := id hfirst
    cases gap with
    | false =>
      have hle := h.complete rfl s hs
      omega
    | true =>
      obtain ⟨l', hfirst', hone⟩ := h.gapped rfl
      rw [hfirst'.unique hfirst] at hone
      exact hmany hone

end Exits

/-- A group says what the rows at its sequence are. -/
structure SequenceGroup.Describes (g : SequenceGroup) (rows : List ProjectionRow) : Prop where
  present : ∃ r ∈ rows, r.sequence = g.sequence
  variants : g.variants = 1 ↔ OneVariant rows g.sequence
  hashed : OneVariant rows g.sequence → ∀ r ∈ rows, r.sequence = g.sequence → r.eventHash = g.hash
  linked : OneVariant rows g.sequence → ∀ r ∈ rows, r.sequence = g.sequence → r.prevHash = g.prev

/-- The groups ahead of a position: in order, all of them, and nothing else. -/
structure Ahead (rows : List ProjectionRow) (n : Nat) (ahead : List SequenceGroup) : Prop where
  increasing : ahead.Pairwise (fun a b => a.sequence < b.sequence)
  beyond : ∀ g ∈ ahead, n < g.sequence
  describes : ∀ g ∈ ahead, g.Describes rows
  complete : ∀ r ∈ rows, n < r.sequence → ∃ g ∈ ahead, g.sequence = r.sequence

section Scan

variable {rows : List ProjectionRow} {n : Nat} {g : SequenceGroup} {rest : List SequenceGroup}

theorem Ahead.first (h : Ahead rows n (g :: rest)) : FirstAfter rows n g.sequence := by
  refine ⟨h.beyond g List.mem_cons_self, (h.describes g List.mem_cons_self).present, ?_⟩
  intro r hr hlt
  obtain ⟨g', hg', heq⟩ := h.complete r hr hlt
  rcases List.mem_cons.1 hg' with rfl | hrest
  · exact heq.le
  · have hlater := (List.pairwise_cons.1 h.increasing).1 g' hrest
    omega

theorem Ahead.tail (h : Ahead rows n (g :: rest)) : Ahead rows g.sequence rest := by
  obtain ⟨hlater, hrest⟩ := List.pairwise_cons.1 h.increasing
  refine ⟨hrest, hlater, fun g' hg' => h.describes g' (List.mem_cons_of_mem _ hg'), ?_⟩
  intro r hr hlt
  have hbeyond := h.beyond g List.mem_cons_self
  obtain ⟨g', hg', heq⟩ := h.complete r hr (by omega)
  rcases List.mem_cons.1 hg' with rfl | hmem
  · omega
  · exact ⟨g', hmem, heq⟩

/-- What a finished scan says about the rows. -/
def Explains (rows : List ProjectionRow) (tenantID streamID : String) :
    Except Err StreamWatermark → Prop
  | .ok w => w.tenantID = tenantID ∧ w.streamID = streamID ∧ Observed rows w.sequence w.hash w.gap
  | .error err => err = errProjectionConflict ∧ Conflicting rows

/-- The loop stops where the prefix does. The induction is on the groups ahead;
    what is reached so far is the invariant. -/
theorem scanGroups_explains {result : StreamWatermark} {ahead : List SequenceGroup}
    (hreached : Reaches rows result.sequence result.hash) (hgap : result.gap = false)
    (hahead : Ahead rows result.sequence ahead) :
    Explains rows result.tenantID result.streamID (scanGroups result ahead) := by
  induction ahead generalizing result with
  | nil =>
    have hnone : ∀ r ∈ rows, r.sequence ≤ result.sequence := by
      intro r hr
      by_contra hlt
      obtain ⟨g, hg, -⟩ := hahead.complete r hr (not_le.1 hlt)
      cases hg
    refine ⟨rfl, rfl, hreached, ?_, fun _ => hnone, ?_⟩
    · intro r hr heq
      have hle := hnone r hr
      omega
    · intro htrue
      rw [hgap] at htrue
      cases htrue
  | cons g rest ih =>
    have hfirst := hahead.first
    have hdescribes := hahead.describes g List.mem_cons_self
    have hmissing : g.sequence ≠ result.sequence + 1 →
        ∀ r ∈ rows, r.sequence ≠ result.sequence + 1 := by
      intro hne r hr heq
      have hle := hfirst.2.2 r hr (by omega)
      have hlt := hfirst.1
      omega
    rw [scanGroups]
    split_ifs with hmany hskip hbroken
    · -- Several variants, at the next sequence or behind a gap.
      have hmany' : ¬ OneVariant rows g.sequence := fun hone => hmany (hdescribes.variants.2 hone)
      refine ⟨rfl, result.sequence, result.hash, hreached, ?_⟩
      by_cases hnext : g.sequence = result.sequence + 1
      · rw [hnext] at hmany'
        exact .inl ⟨hnext ▸ hdescribes.present, .inl hmany'⟩
      · exact .inr ⟨hmissing hnext, g.sequence, hfirst, hmany'⟩
    · have hone := hdescribes.variants.1 (not_not.1 hmany)
      refine ⟨rfl, rfl, hreached, hmissing hskip, (fun h => by cases h), fun _ => ?_⟩
      exact ⟨g.sequence, hfirst, hone⟩
    · have hone := hdescribes.variants.1 (not_not.1 hmany)
      have hnext : g.sequence = result.sequence + 1 := not_not.1 hskip
      obtain ⟨r, hr, hn⟩ := hdescribes.present
      refine ⟨rfl, result.sequence, result.hash, hreached,
        .inl ⟨⟨r, hr, hn.trans hnext⟩, .inr ⟨r, hr, hn.trans hnext, ?_⟩⟩⟩
      rw [hdescribes.hashed hone r hr hn, hdescribes.linked hone r hr hn]
      exact hbroken
    · have hone := hdescribes.variants.1 (not_not.1 hmany)
      have hnext : g.sequence = result.sequence + 1 := not_not.1 hskip
      rw [not_or, not_not] at hbroken
      have hlink : LinksTo rows (result.sequence + 1) result.hash g.hash := by
        rw [← hnext]
        refine ⟨hdescribes.present, hone, hdescribes.hashed hone, ?_, hbroken.1⟩
        intro r hr hn
        rw [hdescribes.linked hone r hr hn, hbroken.2]
      have hreached' : Reaches rows g.sequence g.hash := by
        rw [hnext]
        exact hreached.next hlink
      exact @ih { result with sequence := g.sequence, hash := g.hash } hreached' hgap hahead.tail

end Scan

/-! ## Section 4: The groups of the statement -/

section Statement

variable {anyHash anyPrev : Choice ProjectionRow} {rows : List ProjectionRow}

theorem mem_sequenceGroups {g : SequenceGroup} : g ∈ sequenceGroups anyHash anyPrev rows ↔
    ∃ members, (g.sequence, members) ∈ groups ProjectionRow.sequence rows ∧
      g = sequenceGroup anyHash anyPrev (g.sequence, members) := by
  unfold sequenceGroups
  rw [List.mem_insertionSort, List.mem_map]
  constructor
  · rintro ⟨⟨n, members⟩, hmem, rfl⟩
    exact ⟨members, hmem, rfl⟩
  · rintro ⟨members, hmem, heq⟩
    exact ⟨(g.sequence, members), hmem, heq.symm⟩

theorem sequenceGroups_describes {g : SequenceGroup}
    (h : g ∈ sequenceGroups anyHash anyPrev rows) : g.Describes rows := by
  obtain ⟨members, hmem, hg⟩ := mem_sequenceGroups.1 h
  obtain ⟨⟨r, hr, hn⟩, hmembers⟩ := mem_groups.1 hmem
  dsimp only at hn hmembers
  have hin : ∀ {s : ProjectionRow}, s ∈ members ↔ s ∈ rows ∧ s.sequence = g.sequence := by
    intro s
    rw [hmembers, List.mem_filter, decide_eq_true_eq]
  have hne : members ≠ [] := List.ne_nil_of_mem (hin.2 ⟨hr, hn⟩)
  have hvariants : g.variants = uniqExact ProjectionRow.variant members := by rw [hg]; rfl
  have hhash : g.hash = (anyHash.pick members).eventHash := by rw [hg]; rfl
  have hprev : g.prev = (anyPrev.pick members).prevHash := by rw [hg]; rfl
  refine ⟨⟨r, hr, hn⟩, ?_, ?_, ?_⟩
  · rw [hvariants, uniqExact_eq_one_iff hne]
    constructor
    · intro hall a ha han b hb hbn
      exact hall a (hin.2 ⟨ha, han⟩) b (hin.2 ⟨hb, hbn⟩)
    · intro hone a ha b hb
      exact hone a (hin.1 ha).1 (hin.1 ha).2 b (hin.1 hb).1 (hin.1 hb).2
  · intro hone s hs hsn
    have hpick := hin.1 (anyHash.pick_mem members hne)
    have hsame := hone s hs hsn _ hpick.1 hpick.2
    rw [hhash]
    exact congrArg (fun v => v.2.1) hsame
  · intro hone s hs hsn
    have hpick := hin.1 (anyPrev.pick_mem members hne)
    have hsame := hone s hs hsn _ hpick.1 hpick.2
    rw [hprev]
    exact congrArg (fun v => v.2.2.1) hsame

theorem sequenceGroups_ahead (hpositive : ∀ r ∈ rows, 0 < r.sequence) :
    Ahead rows 0 (sequenceGroups anyHash anyPrev rows) := by
  refine ⟨?_, ?_, fun g hg => sequenceGroups_describes hg, ?_⟩
  · have hsorted : (sequenceGroups anyHash anyPrev rows).Pairwise
        (fun a b => a.sequence ≤ b.sequence) := by
      unfold sequenceGroups
      exact List.pairwise_insertionSort _ _
    have hnodup : (sequenceGroups anyHash anyPrev rows).Pairwise
        (fun a b => a.sequence ≠ b.sequence) := by
      have hkeys : ((groups ProjectionRow.sequence rows).map
          (sequenceGroup anyHash anyPrev)).Pairwise (fun a b => a.sequence ≠ b.sequence) := by
        rw [List.pairwise_map]
        exact List.pairwise_map.1 (groups_nodup ProjectionRow.sequence rows)
      exact (List.perm_insertionSort _ _).symm.pairwise hkeys fun hne => hne.symm
    exact (hsorted.and hnodup).imp fun h => lt_of_le_of_ne h.1 h.2
  · intro g hg
    obtain ⟨r, hr, hn⟩ := (sequenceGroups_describes hg).present
    rw [← hn]
    exact hpositive r hr
  · intro r hr _
    refine ⟨sequenceGroup anyHash anyPrev (r.sequence, rows.filter fun s => s.sequence = r.sequence),
      ?_, rfl⟩
    exact mem_sequenceGroups.2 ⟨_, group_of_mem ProjectionRow.sequence hr, rfl⟩

theorem Reaches.mono {rows' : List ProjectionRow} {n m : Nat} {hash hash' : String} {gap : Bool}
    (hsub : ∀ r ∈ rows, r ∈ rows') (hobserved : Observed rows' m hash' gap)
    (h : Reaches rows n hash) : Reaches rows' n hash := by
  induction h with
  | start => exact .start
  | @next k prev next _ hlink ih =>
    obtain ⟨r, hr, hn⟩ := hlink.present
    -- The prefix cannot end here: a row for the next sequence is there.
    have hgoes : ∃ next', LinksTo rows' (k + 1) prev next' := by
      by_contra hstopped
      have hstop : StopsAt rows' k prev := ⟨ih, fun next' h => hstopped ⟨next', h⟩⟩
      obtain ⟨rfl, rfl⟩ := hobserved.stops.unique hstop
      exact hobserved.missing r (hsub r hr) hn
    obtain ⟨next', hlink'⟩ := hgoes
    have heq : next' = next := by
      rw [← hlink'.hashed r (hsub r hr) hn, hlink.hashed r hr hn]
    exact ih.next (heq ▸ hlink')

end Statement

/-! ## Section 5: The watermark -/

section Watermark

variable {tenantID streamID : String}

theorem watermark_explains (anyHash anyPrev : Choice ProjectionRow) (rows : List ProjectionRow)
    (hscope : projectionScope tenantID streamID = .ok ()) (hstream : streamID ≠ "")
    (hpositive : ∀ r ∈ streamRows rows tenantID streamID, 0 < r.sequence) :
    Explains (streamRows rows tenantID streamID) tenantID streamID
      (watermark anyHash anyPrev rows tenantID streamID) := by
  unfold watermark
  rw [hscope]
  simp only [if_neg hstream]
  exact @scanGroups_explains _ { tenantID := tenantID, streamID := streamID } _ .start rfl
    (sequenceGroups_ahead hpositive)

theorem watermark_iff (anyHash anyPrev : Choice ProjectionRow) (rows : List ProjectionRow)
    (hscope : projectionScope tenantID streamID = .ok ()) (hstream : streamID ≠ "")
    (hpositive : ∀ r ∈ streamRows rows tenantID streamID, 0 < r.sequence) :
    (∀ w, watermark anyHash anyPrev rows tenantID streamID = .ok w ↔
      w.tenantID = tenantID ∧ w.streamID = streamID ∧
        Observed (streamRows rows tenantID streamID) w.sequence w.hash w.gap) ∧
    (∀ err, watermark anyHash anyPrev rows tenantID streamID = .error err ↔
      err = errProjectionConflict ∧ Conflicting (streamRows rows tenantID streamID)) := by
  have h := watermark_explains anyHash anyPrev rows hscope hstream hpositive
  cases hresult : watermark anyHash anyPrev rows tenantID streamID with
  | ok w =>
    rw [hresult] at h
    obtain ⟨htenant, hstreamID, hobserved⟩ := h
    constructor
    · intro w'
      constructor
      · intro heq
        cases heq
        exact ⟨htenant, hstreamID, hobserved⟩
      · rintro ⟨htenant', hstreamID', hobserved'⟩
        obtain ⟨hn, hhash, hgap⟩ := hobserved.unique hobserved'
        cases w
        cases w'
        simp_all
    · intro err
      constructor
      · intro heq
        cases heq
      · rintro ⟨-, hconflict⟩
        exact (hobserved.not_conflicting hconflict).elim
  | error err =>
    rw [hresult] at h
    obtain ⟨rfl, hconflict⟩ := h
    constructor
    · intro w
      constructor
      · intro heq
        cases heq
      · rintro ⟨-, -, hobserved⟩
        exact (hobserved.not_conflicting hconflict).elim
    · intro err
      constructor
      · intro heq
        cases heq
        exact ⟨rfl, hconflict⟩
      · rintro ⟨rfl, -⟩
        rfl

theorem Reaches.congr {rows rows' : List ProjectionRow} (hsame : ∀ r, r ∈ rows' ↔ r ∈ rows)
    {n : Nat} {hash : String} (h : Reaches rows n hash) : Reaches rows' n hash := by
  induction h with
  | start => exact .start
  | next _ hlink ih =>
    obtain ⟨⟨r, hr, hn⟩, hsingle, hhashed, hlinked, hnamed⟩ := hlink
    refine ih.next ⟨⟨r, (hsame r).2 hr, hn⟩, ?_, ?_, ?_, hnamed⟩
    · intro a ha han b hb hbn
      exact hsingle a ((hsame a).1 ha) han b ((hsame b).1 hb) hbn
    · exact fun a ha => hhashed a ((hsame a).1 ha)
    · exact fun a ha => hlinked a ((hsame a).1 ha)

theorem Observed.congr {rows rows' : List ProjectionRow} (hsame : ∀ r, r ∈ rows' ↔ r ∈ rows)
    {n : Nat} {hash : String} {gap : Bool} (h : Observed rows n hash gap) :
    Observed rows' n hash gap := by
  refine ⟨h.reached.congr hsame, fun r hr => h.missing r ((hsame r).1 hr),
    fun hgap r hr => h.complete hgap r ((hsame r).1 hr), ?_⟩
  intro hgap
  obtain ⟨m, ⟨hlt, ⟨r, hr, hm⟩, hleast⟩, hone⟩ := h.gapped hgap
  refine ⟨m, ⟨hlt, ⟨r, (hsame r).2 hr, hm⟩, fun s hs => hleast s ((hsame s).1 hs)⟩, ?_⟩
  intro a ha han b hb hbn
  exact hone a ((hsame a).1 ha) han b ((hsame b).1 hb) hbn

theorem mem_streamRows {rows : List ProjectionRow} {r : ProjectionRow} :
    r ∈ streamRows rows tenantID streamID ↔
      r ∈ rows ∧ r.tenantID = tenantID ∧ r.streamID = streamID := by
  unfold streamRows
  rw [List.mem_filter, decide_eq_true_eq]

end Watermark

/-- **Projection watermark.** For rows with positive sequences, whatever each
    `any` takes: the watermark is where the linked prefix ends before a missing
    sequence, a conflict is reported exactly if the rows there conflict, and
    there is no third outcome. Only the set of rows matters. Rows that are added
    without a conflict never lower the sequence, and every sequence covered
    before keeps its hash. -/
theorem watermark_exact (anyHash anyPrev : Choice ProjectionRow) (rows : List ProjectionRow)
    {tenantID streamID : String} (hscope : projectionScope tenantID streamID = .ok ())
    (hstream : streamID ≠ "")
    (hpositive : ∀ r ∈ streamRows rows tenantID streamID, 0 < r.sequence) :
    (∀ w, watermark anyHash anyPrev rows tenantID streamID = .ok w ↔
      w.tenantID = tenantID ∧ w.streamID = streamID ∧
        Observed (streamRows rows tenantID streamID) w.sequence w.hash w.gap) ∧
    (∀ err, watermark anyHash anyPrev rows tenantID streamID = .error err ↔
      err = errProjectionConflict ∧ Conflicting (streamRows rows tenantID streamID)) ∧
    (∀ (anyHash' anyPrev' : Choice ProjectionRow) (rows' : List ProjectionRow),
      (∀ r, r ∈ rows' ↔ r ∈ rows) →
      watermark anyHash' anyPrev' rows' tenantID streamID =
        watermark anyHash anyPrev rows tenantID streamID) ∧
    (∀ (anyHash' anyPrev' : Choice ProjectionRow) (rows' : List ProjectionRow)
      (w w' : StreamWatermark),
      (∀ r ∈ rows, r ∈ rows') →
      (∀ r ∈ streamRows rows' tenantID streamID, 0 < r.sequence) →
      watermark anyHash anyPrev rows tenantID streamID = .ok w →
      watermark anyHash' anyPrev' rows' tenantID streamID = .ok w' →
      w.sequence ≤ w'.sequence ∧
        ∀ n hash, Reaches (streamRows rows tenantID streamID) n hash →
          Reaches (streamRows rows' tenantID streamID) n hash) := by
  have hiff := watermark_iff anyHash anyPrev rows hscope hstream hpositive
  refine ⟨hiff.1, hiff.2, ?_, ?_⟩
  · intro anyHash' anyPrev' rows' hsame
    have hsame' : ∀ r, r ∈ streamRows rows tenantID streamID ↔
        r ∈ streamRows rows' tenantID streamID := by
      intro r
      rw [mem_streamRows, mem_streamRows, hsame r]
    have hpositive' : ∀ r ∈ streamRows rows' tenantID streamID, 0 < r.sequence :=
      fun r hr => hpositive r ((hsame' r).2 hr)
    have h := watermark_explains anyHash' anyPrev' rows' hscope hstream hpositive'
    cases hresult : watermark anyHash' anyPrev' rows' tenantID streamID with
    | ok w =>
      rw [hresult] at h
      exact ((hiff.1 w).2 ⟨h.1, h.2.1, h.2.2.congr hsame'⟩).symm
    | error err =>
      rw [hresult] at h
      obtain ⟨rfl, hconflict⟩ := h
      -- Had these rows a watermark, the others would have it too.
      cases hother : watermark anyHash anyPrev rows tenantID streamID with
      | ok w =>
        obtain ⟨-, -, hobserved⟩ := (hiff.1 w).1 hother
        exact ((hobserved.congr fun r => (hsame' r).symm).not_conflicting hconflict).elim
      | error err =>
        rw [((hiff.2 err).1 hother).1]
  · intro anyHash' anyPrev' rows' w w' hsub hpositive' hw hw'
    obtain ⟨-, -, hobserved⟩ := (hiff.1 w).1 hw
    obtain ⟨-, -, hobserved'⟩ :=
      ((watermark_iff anyHash' anyPrev' rows' hscope hstream hpositive').1 w').1 hw'
    have hsub' : ∀ r ∈ streamRows rows tenantID streamID,
        r ∈ streamRows rows' tenantID streamID := by
      intro r hr
      rw [mem_streamRows] at hr ⊢
      exact ⟨hsub r hr.1, hr.2⟩
    exact ⟨hobserved'.stops.le (hobserved.reached.mono hsub' hobserved'),
      fun n hash hreached => hreached.mono hsub' hobserved'⟩

/-- Sequences 1 and 2 of a stream, linked, and 4 behind a gap. -/
def linkedRows : List ProjectionRow :=
  [{ tenantID := "acme", streamID := "orders", sequence := 4, eventID := "e4", eventHash := "h4"
     prevHash := "h3" },
    { tenantID := "acme", streamID := "orders", sequence := 1, eventID := "e1", eventHash := "h1" },
    { tenantID := "acme", streamID := "orders", sequence := 2, eventID := "e2", eventHash := "h2"
      prevHash := "h1" }]

theorem linked_rows_twice :
    watermark Choice.first Choice.first (linkedRows ++ linkedRows.reverse) "acme" "orders" =
      watermark Choice.first Choice.first linkedRows "acme" "orders" :=
  (watermark_exact Choice.first Choice.first linkedRows (by decide) (by decide)
    (by decide)).2.2.1 Choice.first Choice.first _ (by simp)

example : watermark Choice.first Choice.first linkedRows "acme" "orders" =
    .ok { tenantID := "acme", streamID := "orders", sequence := 2, hash := "h2", gap := true } := by
  decide

end AuditGovernance
