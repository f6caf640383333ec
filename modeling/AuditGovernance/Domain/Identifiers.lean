import AuditGovernance.Store.Keys

/-! # Identifier rules

    The character rules for texts that become components of composite keys
    (`internal/domain/identifiers.go`). What matters downstream is
    `validKeyComponent_free`: an accepted component cannot contain the unit
    separator, so keys built from accepted components split back uniquely.
-/

namespace AuditGovernance

open Framing

/-- `unicode.IsControl`. -/
def isControl (c : Char) : Bool := c.val < 0x20 || (0x7f ≤ c.val && c.val < 0xa0)

/-- `unicode.IsSpace`. -/
def isSpace (c : Char) : Bool :=
  (0x09 ≤ c.val && c.val ≤ 0x0d) || c.val = 0x20 || c.val = 0x85 || c.val = 0xa0 ||
    c.val = 0x1680 || (0x2000 ≤ c.val && c.val ≤ 0x200a) || c.val = 0x2028 || c.val = 0x2029 ||
    c.val = 0x202f || c.val = 0x205f || c.val = 0x3000

/-- The loop of `ValidKeyComponent`: the first offending character decides. -/
def checkKeyCharacters (name : String) : List Char → Except Err Unit
  | [] => .ok ()
  | c :: rest =>
    if isControl c then .error (.invalid (name ++ " must not contain control characters"))
    else if isSpace c then .error (.invalid (name ++ " must not contain whitespace"))
    else if c = '/' ∨ c = '\\' then
      .error (.invalid (name ++ " must not contain path separators"))
    else checkKeyCharacters name rest

/-- `ValidKeyComponent`. -/
def validKeyComponent (name value : String) : Except Err Unit :=
  checkKeyCharacters name value.toList

def maxArchiveComponentBytes : Nat := 85

/-- `ValidArchiveComponentLength`. -/
def validArchiveComponentLength (name value : String) : Except Err Unit :=
  if value.utf8ByteSize > maxArchiveComponentBytes then
    .error (.invalid (name ++ " is " ++ toString value.utf8ByteSize ++ " bytes, max " ++
      toString maxArchiveComponentBytes ++ " (archive component limit)"))
  else .ok ()

/-- The rule shared by tenant ids and stream components: no `:` either, and a
    bounded length. -/
def validFrameComponent (name value : String) : Except Err Unit :=
  match validKeyComponent name value with
  | .error e => .error e
  | .ok () =>
    if ':' ∈ value.toList then .error (.invalid (name ++ " must not contain ':'"))
    else validArchiveComponentLength name value

/-- `ValidStreamComponent`. -/
def validStreamComponent (name value : String) : Except Err Unit := validFrameComponent name value

/-- `ValidTenantIDComponent`. -/
def validTenantIDComponent (name value : String) : Except Err Unit := validFrameComponent name value

/-- `ValidTenantID`. -/
def validTenantID (id : String) : Except Err Unit := validTenantIDComponent "tenant id" id

/-! ## What acceptance gives -/

theorem checkKeyCharacters_ok {name : String} {cs : List Char}
    (h : checkKeyCharacters name cs = .ok ()) : ∀ c ∈ cs, isControl c = false := by
  induction cs with
  | nil =>
    intro c hc
    cases hc
  | cons d rest ih =>
    unfold checkKeyCharacters at h
    split at h
    · cases h
    next hctl =>
    split at h
    · cases h
    split at h
    · cases h
    intro c hc
    rcases List.mem_cons.1 hc with hc | hc
    · subst hc
      simpa using hctl
    · exact ih h c hc

theorem validKeyComponent_free {name value : String} (h : validKeyComponent name value = .ok ()) :
    Free keySeparator value := by
  intro hmem
  have hctl := checkKeyCharacters_ok h keySeparator hmem
  exact absurd hctl (by decide)

theorem validFrameComponent_key {name value : String}
    (h : validFrameComponent name value = .ok ()) : validKeyComponent name value = .ok () := by
  unfold validFrameComponent at h
  split at h
  · cases h
  · next hkey => exact hkey

end AuditGovernance
