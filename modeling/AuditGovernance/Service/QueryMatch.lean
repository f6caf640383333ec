import AuditGovernance.Service.Admission

/-! # What a query selects

    `Service.matches` with the comparison of search digests
    (`internal/service/query_match.go`). A stored digest and the digest of the
    query may be of different formats; then the digest of the query's format is
    derived again from the stored value, if there is one to derive it from.
-/

namespace AuditGovernance

open FiniteMap

/-- `SearchDigest`, the unbound format. -/
def searchDigest (mac : String → String) (value : Json) : Except Err String :=
  value.marshal.map mac

/-- `IsBoundSearchDigest`. -/
def isBoundSearchDigest (digest : String) : Bool := searchDigestMark.toList.isPrefixOf digest.toList

/-- `hasTarget`. -/
def Event.hasTarget (e : Event) (targetID : String) : Bool :=
  e.targets.any (fun target => target.id = targetID)

/-- `digestMatches`. -/
def Deployment.digestMatches (d : Deployment) (event : Event) (query : Query)
    (schemas : Dict EventSchema) : Bool :=
  match event.payload[query.payloadField ++ Env.searchDigestSuffix]? with
  | some (.str stored) =>
    if isBoundSearchDigest stored = isBoundSearchDigest query.payloadDigest then
      stored = query.payloadDigest
    else
      match schemas[schemaKey event.tenantID event.schemaID event.schemaVersion]? with
      | none => false
      | some schema =>
        if query.payloadField ∈ schema.encryptedFields then false
        else
          match event.payload[query.payloadField]? with
          | none => false
          | some value =>
            let derived :=
              if isBoundSearchDigest query.payloadDigest then
                searchDigestBound d.mac value event.tenantID query.payloadField
              else searchDigest d.mac value
            derived = .ok query.payloadDigest
  | _ => false

/-- A filter on a text that is set selects the events with that text. -/
def textMatches (wanted actual : String) : Bool := wanted = "" || actual = wanted

/-- `Service.matches`. -/
def Deployment.matches_ (d : Deployment) (event : Event) (query : Query)
    (schemas : Dict EventSchema) : Bool :=
  query.from_ ≤ event.occurredAt && event.occurredAt < query.to_ &&
    textMatches query.eventType event.eventType &&
    textMatches query.sourceSystem event.sourceSystem &&
    textMatches query.actorID event.actor.id &&
    (query.targetID = "" || event.hasTarget query.targetID) &&
    textMatches query.aggregateType event.aggregateType &&
    textMatches query.aggregateID event.aggregateID &&
    textMatches query.operationID event.operationID &&
    textMatches query.causationID event.causationID &&
    textMatches query.correlationID event.correlationID &&
    textMatches query.traceID event.traceID &&
    textMatches query.outcome event.outcome &&
    (query.payloadField = "" || d.digestMatches event query schemas) &&
    textMatches query.streamID event.streamID

end AuditGovernance
