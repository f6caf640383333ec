import AuditGovernance.Framework.Transition
import AuditGovernance.Service.Schemas

/-! # Schema evolution

    `RegisterSchema` compares each version of a schema with the newest one
    before it. Over a whole history versions only grow, registered ones stay
    as they are, and required fields are never dropped. Allowed fields are
    never dropped either, provided a version with an allowed list keeps the
    fields of the newest version that has one (`Widens`); the source looks at
    the version just before (`empty_list_hides_allowed_fields`).
-/

namespace AuditGovernance

open FiniteMap Transition

/-! ## Section 1: Histories -/

/-- A call of `RegisterSchema` with the values it reads from its service. -/
structure SchemaCall where
  cap : Nat := 0
  now : Time
  actor : String
  actionID : String
  schema : EventSchema

inductive SchemaLabel where
  /-- A successful registration. -/
  | register (call : SchemaCall)
  /-- Any other change of the control plane. -/
  | other (control : Control)

/-- Control planes that start without schemas. -/
def schemaSystem : System Control SchemaLabel where
  init := fun control => control.schemas = ∅
  step := fun control label =>
    match label with
    | .register call =>
      (registerSchema call.cap call.now call.actor call.actionID call.schema control).toOption
    | .other changed => some { changed with schemas := control.schemas }

/-- The newest of some versions; the first of several. -/
def newestOf (versions : List EventSchema) : Option EventSchema :=
  versions.foldl
    (fun previous c =>
      match previous with
      | none => some c
      | some p => if p.version < c.version then some c else some p) none

/-- The newest version that has an allowed list. -/
def newestRestricted (control : Control) (schema : EventSchema) : Option EventSchema :=
  newestOf ((schemaVersions control schema).filter (fun c => c.allowedFields ≠ []))

/-- A schema with an allowed list keeps the fields of the newest version that
    has one. -/
def Widens (control : Control) (schema : EventSchema) : Prop :=
  match newestRestricted control schema with
  | none => True
  | some w => schema.allowedFields ≠ [] → ∀ field ∈ w.allowedFields, field ∈ schema.allowedFields

instance (control : Control) (schema : EventSchema) : Decidable (Widens control schema) :=
  match h : newestRestricted control schema with
  | none => isTrue (by simp [Widens, h])
  | some w => decidable_of_iff (schema.allowedFields ≠ [] →
      ∀ field ∈ w.allowedFields, field ∈ schema.allowedFields) (by simp [Widens, h])

/-- The condition on a step. -/
def widens (control : Control) : SchemaLabel → Prop
  | .register call => Widens control call.schema
  | .other _ => True

instance (control : Control) (label : SchemaLabel) : Decidable (widens control label) :=
  match label with
  | .register call => inferInstanceAs (Decidable (Widens control call.schema))
  | .other _ => isTrue trivial

/-- Two versions of one schema. -/
def SameSchema (a b : EventSchema) : Prop := a.tenantID = b.tenantID ∧ a.schemaID = b.schemaID

/-- What holds between an older and a newer version. -/
structure Extends (older newer : EventSchema) : Prop where
  required : ∀ field ∈ older.requiredFields, field ∈ newer.requiredFields
  allowed : older.allowedFields ≠ [] → newer.allowedFields ≠ [] →
    ∀ field ∈ older.allowedFields, field ∈ newer.allowedFields

/-- Every version extends every older one, and a version number stands for one
    definition. -/
def VersionsExtend (schemas : Dict EventSchema) : Prop :=
  ∀ (k l : String) (a b : EventSchema), schemas[k]? = some a → schemas[l]? = some b →
    SameSchema a b → (a.version < b.version → Extends a b) ∧ (a.version = b.version → a = b)

/-! ## Section 2: The newest version -/

theorem newest_fold (versions : List EventSchema) (p : EventSchema) :
    ∃ m, versions.foldl
      (fun previous c =>
        match previous with
        | none => some c
        | some p => if p.version < c.version then some c else some p) (some p) = some m ∧
      (m = p ∨ m ∈ versions) ∧ p.version ≤ m.version ∧ ∀ c ∈ versions, c.version ≤ m.version := by
  -- by induction, for every newest version so far
  induction versions generalizing p with
  | nil => exact ⟨p, rfl, .inl rfl, le_refl _, by simp⟩
  | cons c rest ih =>
    rw [List.foldl_cons]
    dsimp only
    by_cases hlt : p.version < c.version
    · rw [if_pos hlt]
      obtain ⟨m, hm, hmem, hle, hall⟩ := ih c
      refine ⟨m, hm, .inr ?_, by omega, ?_⟩
      · rcases hmem with rfl | hmem
        · exact List.mem_cons_self
        · exact List.mem_cons_of_mem _ hmem
      · intro c' hc'
        rcases List.mem_cons.1 hc' with rfl | hc'
        · exact hle
        · exact hall c' hc'
    · rw [if_neg hlt]
      obtain ⟨m, hm, hmem, hle, hall⟩ := ih p
      refine ⟨m, hm, ?_, hle, ?_⟩
      · rcases hmem with rfl | hmem
        · exact .inl rfl
        · exact .inr (List.mem_cons_of_mem _ hmem)
      · intro c' hc'
        rcases List.mem_cons.1 hc' with rfl | hc'
        · omega
        · exact hall c' hc'

theorem newestOf_mem {versions : List EventSchema} {c : EventSchema} (hc : c ∈ versions) :
    ∃ m, newestOf versions = some m ∧ m ∈ versions ∧ ∀ c' ∈ versions, c'.version ≤ m.version := by
  cases versions with
  | nil => cases hc
  | cons d rest =>
    obtain ⟨m, hm, hmem, hle, hall⟩ := newest_fold rest d
    refine ⟨m, hm, ?_, ?_⟩
    · rcases hmem with rfl | hmem
      · exact List.mem_cons_self
      · exact List.mem_cons_of_mem _ hmem
    · intro c' hc'
      rcases List.mem_cons.1 hc' with rfl | hc'
      · exact hle
      · exact hall c' hc'

theorem previousVersion_eq (control : Control) (schema : EventSchema) :
    previousVersion control schema =
      newestOf ((schemaVersions control schema).filter (fun c => c.version < schema.version)) := rfl

theorem version_le_newest {versions : List EventSchema} {c : EventSchema} (hc : c ∈ versions)
    (n : Int) : c.version ≤ versions.foldl (fun n c => max n c.version) n ∧
      n ≤ versions.foldl (fun n c => max n c.version) n := by
  have hstart : ∀ (l : List EventSchema) (n : Int),
      n ≤ l.foldl (fun n c => max n c.version) n := by
    intro l
    induction l with
    | nil => exact fun n => le_refl n
    | cons d rest ih => exact fun n => (le_max_left _ _).trans (ih _)
  refine ⟨?_, hstart _ _⟩
  induction versions generalizing n with
  | nil => cases hc
  | cons d rest ih =>
    rcases List.mem_cons.1 hc with rfl | hc
    · exact (le_max_right _ _).trans (hstart rest _)
    · exact ih hc _

theorem mem_schemaVersions {control : Control} {schema c : EventSchema} :
    c ∈ schemaVersions control schema ↔
      (∃ k : String, control.schemas[k]? = some c) ∧ SameSchema c schema := by
  unfold schemaVersions
  rw [List.mem_filter, List.mem_map, decide_eq_true_eq]
  refine and_congr ?_ Iff.rfl
  constructor
  · rintro ⟨⟨k, c'⟩, hp, rfl⟩
    exact ⟨k, mem_entries.1 hp⟩
  · rintro ⟨k, hk⟩
    exact ⟨(k, c), mem_entries.2 hk, rfl⟩

/-! ## Section 3: One registration -/

theorem checkEvolution_ok {schema previous : EventSchema}
    (h : checkEvolution schema previous = .ok ()) : Extends previous schema := by
  unfold checkEvolution at h
  rw [checkAll_ok] at h
  constructor
  · intro field hfield
    have hcheck := h _ (List.mem_append_left _ (List.mem_map_of_mem hfield))
    exact of_decide_eq_true (require_ok.1 hcheck)
  · intro hold hnew field hfield
    rw [if_neg (by simp [hold, hnew])] at h
    have hcheck := h _ (List.mem_append_right _ (List.mem_map_of_mem hfield))
    exact of_decide_eq_true (require_ok.1 hcheck)

/-- What a successful registration found and did. -/
structure Registered (control : Control) (schema : EventSchema) (control' : Control) : Prop where
  newest : ∀ c ∈ schemaVersions control schema, c.version ≤ schema.version
  fresh : control.schemas[schemaKey schema.tenantID schema.schemaID schema.version]? = none
  previous : ∀ p, previousVersion control schema = some p → Extends p schema
  stored : ∃ createdAt, control'.schemas =
    control.schemas.insert (schemaKey schema.tenantID schema.schemaID schema.version)
      { schema with createdAt := createdAt, active := true }

theorem registerSchema_ok {cap : Nat} {now : Time} {actor actionID : String}
    {schema : EventSchema} {control control' : Control}
    (h : registerSchema cap now actor actionID schema control = .ok control') :
    Registered control schema control' := by
  unfold registerSchema at h
  split at h
  · cases h
  simp only at h
  split at h
  · cases h
  next hchecks =>
  cases h
  have hchecks := checkAll_ok.1 hchecks
  simp only [List.forall_mem_cons] at hchecks
  obtain ⟨-, hnewest, hfresh, hprevious, -⟩ := hchecks
  rw [require_ok, decide_eq_true_eq] at hnewest
  rw [require_ok, Option.isNone_iff_eq_none] at hfresh
  refine ⟨?_, hfresh, ?_, _, rfl⟩
  · intro c hc
    exact (version_le_newest hc 0).1.trans hnewest
  · intro p hp
    rw [hp] at hprevious
    exact checkEvolution_ok hprevious

/-- Every schema is kept under its own key. -/
def Keyed (schemas : Dict EventSchema) : Prop :=
  ∀ (k : String) (c : EventSchema), schemas[k]? = some c →
    k = schemaKey c.tenantID c.schemaID c.version

namespace Registered

variable {control control' : Control} {schema : EventSchema}

/-- The registered version is newer than every other. -/
theorem older (h : Registered control schema control') (hkeyed : Keyed control.schemas)
    {k : String} {c : EventSchema} (hc : control.schemas[k]? = some c) (hsame : SameSchema c schema) :
    c.version < schema.version := by
  have hle := h.newest c (mem_schemaVersions.2 ⟨⟨k, hc⟩, hsame⟩)
  refine lt_of_le_of_ne hle ?_
  intro heq
  have hkey := hkeyed k c hc
  rw [hsame.1, hsame.2, heq] at hkey
  rw [hkey, h.fresh] at hc
  cases hc

theorem keyed (h : Registered control schema control') (hkeyed : Keyed control.schemas) :
    Keyed control'.schemas := by
  obtain ⟨createdAt, hstored⟩ := h.stored
  intro k c hc
  rw [hstored, lookup_insert] at hc
  split at hc
  next hk =>
    rw [← hk, ← Option.some.inj hc]
  · exact hkeyed k c hc

/-- **One registration.** The new version extends every version that is there.
    What the version just before it settles goes through that version; what it
    leaves open goes through the newest version with an allowed list. -/
theorem extends_all (h : Registered control schema control') (hkeyed : Keyed control.schemas)
    (hextend : VersionsExtend control.schemas) (hwidens : Widens control schema)
    {k : String} {c : EventSchema} (hc : control.schemas[k]? = some c)
    (hsame : SameSchema c schema) : Extends c schema := by
  -- every version below the newest of some versions extends to it
  have hchain : ∀ versions, (∀ v ∈ versions, v ∈ schemaVersions control schema) → c ∈ versions →
      ∃ m, newestOf versions = some m ∧ m ∈ versions ∧ (c = m ∨ Extends c m) := by
    intro versions hversions hcv
    obtain ⟨m, hm, hmem, hle⟩ := newestOf_mem hcv
    obtain ⟨⟨l, hl⟩, hmsame⟩ := mem_schemaVersions.1 (hversions m hmem)
    have hcm : SameSchema c m :=
      ⟨hsame.1.trans hmsame.1.symm, hsame.2.trans hmsame.2.symm⟩
    obtain ⟨hlt, heq⟩ := hextend k l c m hc hl hcm
    rcases lt_or_eq_of_le (hle c hcv) with hversion | hversion
    · exact ⟨m, hm, hmem, .inr (hlt hversion)⟩
    · exact ⟨m, hm, hmem, .inl (heq hversion)⟩
  have hmember : c ∈ schemaVersions control schema := mem_schemaVersions.2 ⟨⟨k, hc⟩, hsame⟩
  constructor
  · -- required fields, through the version just before
    have hbelow : c ∈ (schemaVersions control schema).filter (fun c => c.version < schema.version) :=
      List.mem_filter.2 ⟨hmember, decide_eq_true (h.older hkeyed hc hsame)⟩
    obtain ⟨p, hp, -, hcp⟩ := hchain _ (fun v hv => List.mem_of_mem_filter hv) hbelow
    have hprevious := h.previous p ((previousVersion_eq control schema).trans hp)
    intro field hfield
    rcases hcp with rfl | hcp
    · exact hprevious.required field hfield
    · exact hprevious.required field (hcp.required field hfield)
  · -- allowed fields, through the newest version that has an allowed list
    intro hcne hne field hfield
    have hrestricted : c ∈ (schemaVersions control schema).filter (fun c => c.allowedFields ≠ []) :=
      List.mem_filter.2 ⟨hmember, decide_eq_true hcne⟩
    obtain ⟨w, hw, hwmem, hcw⟩ := hchain _ (fun v hv => List.mem_of_mem_filter hv) hrestricted
    have hwne : w.allowedFields ≠ [] := of_decide_eq_true (List.mem_filter.1 hwmem).2
    have hkeep : ∀ field ∈ w.allowedFields, field ∈ schema.allowedFields := by
      have hwid := hwidens
      rw [Widens, newestRestricted, hw] at hwid
      exact hwid hne
    rcases hcw with rfl | hcw
    · exact hkeep field hfield
    · exact hkeep field (hcw.allowed hcne hwne field hfield)

theorem versionsExtend (h : Registered control schema control') (hkeyed : Keyed control.schemas)
    (hextend : VersionsExtend control.schemas) (hwidens : Widens control schema) :
    VersionsExtend control'.schemas := by
  obtain ⟨createdAt, hstored⟩ := h.stored
  intro k l a b ha hb hsame
  rw [hstored, lookup_insert] at ha hb
  split at ha
  next hk =>
    have ha := Option.some.inj ha
    subst ha
    split at hb
    next hl =>
      have hb := Option.some.inj hb
      subst hb
      exact ⟨fun hlt => absurd hlt (lt_irrefl _), fun _ => rfl⟩
    next hl =>
      -- the new version is not older than another
      have holder := h.older hkeyed hb ⟨hsame.1.symm, hsame.2.symm⟩
      constructor
      · intro hlt
        exact absurd (hlt.trans holder) (lt_irrefl _)
      · intro heq
        exact absurd (heq ▸ holder) (lt_irrefl _)
  next hk =>
    split at hb
    next hl =>
      have hb := Option.some.inj hb
      subst hb
      have hext := h.extends_all hkeyed hextend hwidens ha hsame
      have holder := h.older hkeyed ha hsame
      refine ⟨fun _ => ⟨hext.required, hext.allowed⟩, ?_⟩
      intro heq
      exact absurd (heq ▸ holder) (lt_irrefl _)
    next hl => exact hextend k l a b ha hb hsame

end Registered

/-! ## Section 4: Whole histories -/

/-- A step registers a schema or leaves the schemas alone. -/
theorem schemaSystem_step {control control' : Control} {label : SchemaLabel}
    (h : schemaSystem.step control label = some control') :
    (∃ call, label = .register call ∧ Registered control call.schema control') ∨
      control'.schemas = control.schemas := by
  cases label with
  | register call =>
    left
    refine ⟨call, rfl, ?_⟩
    have hstep : (registerSchema call.cap call.now call.actor call.actionID call.schema
        control).toOption = some control' := h
    cases hreg : registerSchema call.cap call.now call.actor call.actionID call.schema control with
    | error err => rw [hreg] at hstep; cases hstep
    | ok c =>
      rw [hreg] at hstep
      exact registerSchema_ok (hreg.trans (congrArg Except.ok (Option.some.inj hstep)))
  | other changed =>
    right
    have hstep : some { changed with schemas := control.schemas } = some control' := h
    rw [← Option.some.inj hstep]

theorem schemas_kept {control control' : Control} {run : List SchemaLabel}
    (h : schemaSystem.exec control run = some control') {key : String} {old : EventSchema}
    (hold : control.schemas[key]? = some old) : control'.schemas[key]? = some old := by
  induction run generalizing control with
  | nil =>
    cases h
    exact hold
  | cons label rest ih =>
    simp only [System.exec, Option.bind_eq_some_iff] at h
    obtain ⟨middle, hstep, hrest⟩ := h
    refine ih hrest ?_
    rcases schemaSystem_step hstep with ⟨call, -, hreg⟩ | hsame
    · obtain ⟨createdAt, hstored⟩ := hreg.stored
      have hne : schemaKey call.schema.tenantID call.schema.schemaID call.schema.version ≠ key := by
        rintro rfl
        rw [hreg.fresh] at hold
        cases hold
      rw [hstored, lookup_insert_ne _ _ hne, hold]
    · rw [hsame, hold]

/-- **Schema evolution.** In every history whose registrations keep the allowed
    fields of the newest version with an allowed list, any two versions extend
    one another, and what is registered stays. -/
theorem schema_versions_extend {control : Control} (h : schemaSystem.Reach widens control) :
    VersionsExtend control.schemas ∧
      ∀ run control', schemaSystem.exec control run = some control' →
        ∀ (key : String) (old : EventSchema), control.schemas[key]? = some old →
          control'.schemas[key]? = some old := by
  refine ⟨?_, fun run control' hrun key old hold => schemas_kept hrun hold⟩
  have hinv : Keyed control.schemas ∧ VersionsExtend control.schemas := by
    refine h.invariant (P := fun c => Keyed c.schemas ∧ VersionsExtend c.schemas) ?_ ?_
    · intro c hinit
      have hempty : c.schemas = ∅ := hinit
      rw [hempty]
      refine ⟨?_, ?_⟩
      · intro k c hc
        simp at hc
      · intro k l a b ha
        simp at ha
    · intro c label c' _ hinv hguard hstep
      rcases schemaSystem_step hstep with ⟨call, rfl, hreg⟩ | hsame
      · exact ⟨hreg.keyed hinv.1, hreg.versionsExtend hinv.1 hinv.2 hguard⟩
      · rw [hsame]
        exact hinv
  exact hinv.2

/-- Register a version of the schema of notes with these allowed fields. -/
def registerNote (version : Int) (allowed : List String) : SchemaLabel :=
  .register
    { now := 63900000000000000000, actor := "admin", actionID := "action-1"
      schema := { tenantID := "acme", schemaID := "note", version := version
                  eventType := "note.written", allowedFields := allowed } }

theorem growing_note_extends :
    ∃ control, schemaSystem.exec acmeControl
        [registerNote 1 ["title"], registerNote 2 ["title", "body"]] = some control ∧
      VersionsExtend control.schemas ∧
      ∀ run control', schemaSystem.exec control run = some control' →
        ∀ (key : String) (old : EventSchema), control.schemas[key]? = some old →
          control'.schemas[key]? = some old := by
  obtain ⟨control, hrun⟩ : ∃ control, schemaSystem.exec acmeControl
      [registerNote 1 ["title"], registerNote 2 ["title", "body"]] = some control :=
    Option.isSome_iff_exists.1 (by decide +kernel)
  have hinit : schemaSystem.init acmeControl := rfl
  exact ⟨control, hrun,
    schema_versions_extend (System.Reach.exec (.init hinit) (by decide +kernel) hrun)⟩

/-- Versions 1, 2 and 3 of the schema, the second without an allowed list. -/
def titleDropped : List SchemaLabel :=
  [registerNote 1 ["title"], registerNote 2 [], registerNote 3 ["body"]]

/-- Version 3 drops the allowed field of version 1. -/
theorem empty_list_hides_allowed_fields :
    ∃ control, schemaSystem.exec acmeControl titleDropped = some control ∧
      schemaSystem.Reachable control ∧ ¬ VersionsExtend control.schemas := by
  obtain ⟨control, hrun⟩ : ∃ control, schemaSystem.exec acmeControl titleDropped = some control :=
    Option.isSome_iff_exists.1 (by decide +kernel)
  have hinit : schemaSystem.init acmeControl := rfl
  refine ⟨control, hrun, System.Reachable.exec (.init hinit) hrun, ?_⟩
  have hfound : (schemaSystem.exec acmeControl titleDropped).all (fun c =>
      (c.schemas[schemaKey "acme" "note" 1]?).map
          (fun v => (v.tenantID, v.schemaID, v.version, v.allowedFields)) =
        some ("acme", "note", 1, ["title"]) &&
      (c.schemas[schemaKey "acme" "note" 3]?).map
          (fun v => (v.tenantID, v.schemaID, v.version, v.allowedFields)) =
        some ("acme", "note", 3, ["body"])) = true := by
    decide +kernel
  rw [hrun, Option.all_some, Bool.and_eq_true, decide_eq_true_eq, decide_eq_true_eq,
    Option.map_eq_some_iff, Option.map_eq_some_iff] at hfound
  obtain ⟨⟨a, ha, hfirst⟩, b, hb, hthird⟩ := hfound
  simp only [Prod.mk.injEq] at hfirst hthird
  obtain ⟨hat, hai, hav, haf⟩ := hfirst
  obtain ⟨hbt, hbi, hbv, hbf⟩ := hthird
  intro hextend
  have hsame : SameSchema a b := ⟨hat.trans hbt.symm, hai.trans hbi.symm⟩
  have hlt : a.version < b.version := by
    rw [hav, hbv]
    decide
  have hkept := ((hextend _ _ a b ha hb hsame).1 hlt).allowed (by rw [haf]; decide)
    (by rw [hbf]; decide) "title" (by rw [haf]; decide)
  rw [hbf] at hkept
  exact absurd hkept (by decide)

end AuditGovernance
