import AuditGovernance.Service.Schemas

/-! # Stream names and composite keys

    The store attributes events and streams to tenants by splitting composite
    keys (`SplitTenantKey`), and the ledger keeps one hash chain per stream
    name (`Event.Stream`). Both rest on character rules checked elsewhere:
    no identifier contains the unit separator, and no tenant id and no
    aggregate component contains `:`. Source names and operation ids may
    contain `:`; they stand last in their frame.

    `composite_keys_unambiguous`: split keys give their components back, and a
    stream name determines its tenant, its kind and the components of the kind.
-/

namespace AuditGovernance

open Framing

/-! ## Section 1: Kinds of streams -/

/-- What a stream is for. -/
inductive StreamKind where
  | aggregate (type id : String)
  | operation (id : String)
  | source (system : String)
deriving DecidableEq

/-- The kind of the stream an event without a stream id belongs to. -/
def Event.streamKind (e : Event) : StreamKind :=
  if e.aggregateType ≠ "" ∧ e.aggregateID ≠ "" then .aggregate e.aggregateType e.aggregateID
  else if e.operationID ≠ "" then .operation e.operationID
  else .source e.sourceSystem

namespace StreamKind

/-- The part of the name behind the tenant. -/
def name : StreamKind → String
  | .aggregate type id => join ':' "aggregate" (join ':' type id)
  | .operation id => join ':' "operation" id
  | .source system => join ':' "source" system

/-- The frame can be read back: only the last component may contain `:`. -/
def Framed : StreamKind → Prop
  | .aggregate type _ => Free ':' type
  | .operation _ => True
  | .source _ => True

/-- The components, for facts about all of them. -/
def components : StreamKind → List String
  | .aggregate type id => [type, id]
  | .operation id => [id]
  | .source system => [system]

theorem name_inj {k l : StreamKind} (hk : k.Framed) (hl : l.Framed) : k.name = l.name ↔ k = l := by
  -- the tags contain no `:`, so different kinds differ in front of the first one
  have htag : ∀ {a b s t : String}, Free ':' a → Free ':' b →
      (join ':' a s = join ':' b t ↔ a = b ∧ s = t) := fun ha hb => join_inj_left ha hb
  have hagg : Free ':' "aggregate" := by decide
  have hop : Free ':' "operation" := by decide
  have hsrc : Free ':' "source" := by decide
  cases k with
  | aggregate type id =>
    cases l with
    | aggregate type' id' =>
      rw [name, name, htag hagg hagg, htag hk hl]
      simp
    | operation id' => simp [name, htag hagg hop]
    | source system' => simp [name, htag hagg hsrc]
  | operation id =>
    cases l with
    | aggregate type' id' => simp [name, htag hop hagg]
    | operation id' => simp [name, htag hop hop]
    | source system' => simp [name, htag hop hsrc]
  | source system =>
    cases l with
    | aggregate type' id' => simp [name, htag hsrc hagg]
    | operation id' => simp [name, htag hsrc hop]
    | source system' => simp [name, htag hsrc hsrc]

theorem free_name {c : Char} {k : StreamKind} (hc : c ≠ ':')
    (htags : Free c "aggregate" ∧ Free c "operation" ∧ Free c "source")
    (h : ∀ component ∈ k.components, Free c component) : Free c k.name := by
  have hjoin : ∀ {a b : String}, Free c a → Free c b → Free c (join ':' a b) := by
    intro a b ha hb hmem
    rw [toList_join, List.mem_append, List.mem_cons] at hmem
    rcases hmem with hmem | hmem | hmem
    · exact ha hmem
    · exact hc hmem
    · exact hb hmem
  cases k with
  | aggregate type id =>
    exact hjoin htags.1 (hjoin (h type (by simp [components])) (h id (by simp [components])))
  | operation id => exact hjoin htags.2.1 (h id (by simp [components]))
  | source system => exact hjoin htags.2.2 (h system (by simp [components]))

end StreamKind

theorem Event.stream_eq {e : Event} (h : e.streamID = "") :
    e.stream = join ':' e.tenantID e.streamKind.name := by
  have hcolon : String.singleton ':' = ":" := by decide
  have hagg : (":aggregate:" : String) = ":" ++ "aggregate" ++ ":" := by decide
  have hop : (":operation:" : String) = ":" ++ "operation" ++ ":" := by decide
  have hsrc : (":source:" : String) = ":" ++ "source" ++ ":" := by decide
  rw [Event.stream, if_neg (not_not.2 h), Event.streamKind]
  by_cases haggregate : e.aggregateType ≠ "" ∧ e.aggregateID ≠ ""
  · rw [if_pos haggregate, if_pos haggregate, StreamKind.name, hagg]
    simp only [join, hcolon, String.append_assoc]
  · rw [if_neg haggregate, if_neg haggregate]
    by_cases hoperation : e.operationID ≠ ""
    · rw [if_pos hoperation, if_pos hoperation, StreamKind.name, hop]
      simp only [join, hcolon, String.append_assoc]
    · rw [if_neg hoperation, if_neg hoperation, StreamKind.name, hsrc]
      simp only [join, hcolon, String.append_assoc]

/-! ## Section 2: What validation gives -/

theorem validFrameComponent_colon {name value : String}
    (h : validFrameComponent name value = .ok ()) : Free ':' value := by
  unfold validFrameComponent at h
  split at h
  · cases h
  split at h
  · cases h
  · next hcolon => exact hcolon

theorem validTenantIDComponent_free {name value : String}
    (h : validTenantIDComponent name value = .ok ()) :
    Free keySeparator value ∧ Free ':' value :=
  ⟨validKeyComponent_free (validFrameComponent_key h), validFrameComponent_colon h⟩

/-- The identifiers of an event that passed `ValidateBasic`. -/
structure Event.Framed (e : Event) : Prop where
  eventID : Free keySeparator e.eventID
  kind : e.streamKind.Framed
  components : ∀ component ∈ e.streamKind.components, Free keySeparator component

theorem Event.validateBasic_framed {e : Event} {payloadNil : Bool}
    (h : e.validateBasic payloadNil = .ok ()) : e.Framed := by
  have hchecks := checkAll_ok.1 h
  have hevent := hchecks (validKeyComponent "event id" e.eventID) (by simp)
  have hsource := hchecks (validKeyComponent "source system" e.sourceSystem) (by simp)
  have htype := hchecks (if e.aggregateType = "" then .ok ()
    else validStreamComponent "aggregate type" e.aggregateType) (by simp)
  have hid := hchecks (if e.aggregateID = "" then .ok ()
    else validStreamComponent "aggregate id" e.aggregateID) (by simp)
  have hoperation := hchecks (if e.operationID = "" then .ok ()
    else validKeyComponent "operation id" e.operationID) (by simp)
  refine ⟨validKeyComponent_free hevent, ?_, ?_⟩
  · rw [Event.streamKind]
    by_cases haggregate : e.aggregateType ≠ "" ∧ e.aggregateID ≠ ""
    · rw [if_pos haggregate]
      rw [if_neg haggregate.1] at htype
      exact validFrameComponent_colon htype
    · rw [if_neg haggregate]
      split <;> trivial
  · rw [Event.streamKind]
    by_cases haggregate : e.aggregateType ≠ "" ∧ e.aggregateID ≠ ""
    · rw [if_pos haggregate]
      rw [if_neg haggregate.1] at htype
      rw [if_neg haggregate.2] at hid
      simp only [StreamKind.components, List.forall_mem_cons]
      exact ⟨validKeyComponent_free (validFrameComponent_key htype),
        validKeyComponent_free (validFrameComponent_key hid), by simp⟩
    · rw [if_neg haggregate]
      by_cases hop : e.operationID ≠ ""
      · rw [if_neg hop] at hoperation
        rw [if_pos hop]
        simpa [StreamKind.components] using validKeyComponent_free hoperation
      · rw [if_neg hop]
        simpa [StreamKind.components] using validKeyComponent_free hsource

theorem Event.Framed.stream {e : Event} (h : e.Framed) (ht : Free keySeparator e.tenantID)
    (hs : e.streamID = "") : Free keySeparator e.stream := by
  have hname : Free keySeparator e.streamKind.name :=
    StreamKind.free_name (by decide) (by decide) h.components
  rw [Event.stream_eq hs]
  intro hmem
  rw [toList_join, List.mem_append, List.mem_cons] at hmem
  rcases hmem with hmem | hmem | hmem
  · exact ht hmem
  · exact absurd hmem (by decide)
  · exact hname hmem

/-! ## Section 3: Composite keys -/

/-- **Composite keys are unambiguous.** For events accepted by `ValidateBasic`
    and tenant ids accepted by `ValidTenantIDComponent`: keys split into their
    components, a stream name says its tenant and what the stream is for, and
    equal keys have equal components. -/
theorem composite_keys_unambiguous {a b : Event} {t u name : String} {nilA nilB : Bool}
    (ht : validTenantIDComponent name t = .ok ()) (hu : validTenantIDComponent name u = .ok ())
    (hta : validTenantIDComponent name a.tenantID = .ok ())
    (htb : validTenantIDComponent name b.tenantID = .ok ())
    (ha : a.validateBasic nilA = .ok ()) (hb : b.validateBasic nilB = .ok ())
    (hsa : a.streamID = "") (hsb : b.streamID = "") :
    splitTenantKey (eventKey t a.eventID) = some (t, a.eventID) ∧
      splitTenantKey (streamKey t a.stream) = some (t, a.stream) ∧
      (a.stream = b.stream ↔ a.tenantID = b.tenantID ∧ a.streamKind = b.streamKind) ∧
      (eventKey t a.eventID = eventKey u b.eventID → t = u ∧ a.eventID = b.eventID) ∧
      (streamKey t a.stream = streamKey u b.stream → t = u ∧ a.stream = b.stream) := by
  obtain ⟨htsep, -⟩ := validTenantIDComponent_free ht
  obtain ⟨husep, -⟩ := validTenantIDComponent_free hu
  obtain ⟨hasep, hacolon⟩ := validTenantIDComponent_free hta
  obtain ⟨-, hbcolon⟩ := validTenantIDComponent_free htb
  have hfa := Event.validateBasic_framed ha
  have hfb := Event.validateBasic_framed hb
  refine ⟨splitTenantKey_join htsep hfa.eventID,
    splitTenantKey_join htsep (hfa.stream hasep hsa), ?_, ?_, ?_⟩
  · rw [Event.stream_eq hsa, Event.stream_eq hsb, join_inj_left hacolon hbcolon,
      StreamKind.name_inj hfa.kind hfb.kind]
  · exact (join_inj_left htsep husep).1
  · exact (join_inj_left htsep husep).1

/-- A note of a source whose name contains `:`. -/
def sourceNote : Event := { noteEvent ∅ with tenantID := "acme", sourceSystem := "notes:eu" }

/-- A note of an operation whose id contains `:`. -/
def operationNote : Event := { noteEvent ∅ with tenantID := "globex", operationID := "source:notes" }

theorem notes_unambiguous :
    sourceNote.validateBasic false = .ok () ∧ operationNote.validateBasic false = .ok () ∧
      splitTenantKey (eventKey "acme" sourceNote.eventID) = some ("acme", sourceNote.eventID) ∧
      splitTenantKey (streamKey "acme" sourceNote.stream) = some ("acme", sourceNote.stream) ∧
      (sourceNote.stream = operationNote.stream ↔ sourceNote.tenantID = operationNote.tenantID ∧
        sourceNote.streamKind = operationNote.streamKind) ∧
      (eventKey "acme" sourceNote.eventID = eventKey "globex" operationNote.eventID →
        "acme" = "globex" ∧ sourceNote.eventID = operationNote.eventID) ∧
      (streamKey "acme" sourceNote.stream = streamKey "globex" operationNote.stream →
        "acme" = "globex" ∧ sourceNote.stream = operationNote.stream) :=
  have hsource : sourceNote.validateBasic false = .ok () := by decide +kernel
  have hoperation : operationNote.validateBasic false = .ok () := by decide +kernel
  ⟨hsource, hoperation, @composite_keys_unambiguous sourceNote operationNote "acme" "globex"
    "tenant_id" false false (by decide +kernel) (by decide +kernel) (by decide +kernel)
    (by decide +kernel) hsource hoperation rfl rfl⟩

end AuditGovernance
