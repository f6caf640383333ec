import AuditGovernance.Framework.FiniteMap
import AuditGovernance.Framework.Transition

/-! # The publication gates

    Publishers of one pending event exclude each other through a gate of that
    event's key (`internal/service/ledgered_gate.go`): a mutex and a reference
    count. A table maps each key to its gate; the table's lock guards the
    table and the counts, but not the mutexes.

    Looking the gate up, trying its mutex, unlocking it and dropping the
    reference are one step each, and the steps of any number of calls
    interleave freely. As long as a call has its reference, the table maps its
    key to its gate (`Consistent.entry`), so all calls of one key meet at one
    mutex.
-/

namespace AuditGovernance.LedgeredGate

open FiniteMap Transition

/-! ## Section 1: The state -/

/-- `ledgeredKeyGate`. -/
structure Gate where
  /-- The mutex `mu` is locked. -/
  locked : Bool := false
  refs : Int := 0
deriving DecidableEq, Inhabited

/-- Where a call is between two of its steps. -/
inductive Stage where
  /-- `ledgeredGateFor` has returned; `TryLock` comes next. -/
  | looked
  /-- `TryLock` has failed; the reference is still to be dropped. -/
  | refused
  /-- `TryLock` has succeeded; the caller publishes. -/
  | holding
  /-- `Unlock` has returned; the reference is still to be dropped. -/
  | unlocked
deriving DecidableEq

/-- A call of `tryAcquireLedgeredKey` and the `releaseLedgeredKey` that
    belongs to it. The gate is a pointer. -/
structure Call where
  key : String
  gate : Nat
  stage : Stage
deriving DecidableEq

/-- The table, the memory the gates live in, and the calls in progress. -/
structure State where
  /-- `ledgeredGates`. -/
  table : Dict Nat := ∅
  /-- The gates by their pointers. -/
  heap : Nat → Gate := fun _ => {}
  /-- Pointers from here on have not been handed out. -/
  fresh : Nat := 0
  calls : List Call := []

namespace State

/-- Change the gate behind a pointer. -/
def update (s : State) (gate : Nat) (f : Gate → Gate) : State :=
  { s with heap := Function.update s.heap gate (f (s.heap gate)) }

/-- `ledgeredGates[key]`, which is made if there is none. -/
def lookOrMake (s : State) (key : String) : Nat × State :=
  match s.table[key]? with
  | some gate => (gate, s)
  | none =>
    (s.fresh,
      { s with
        table := s.table.insert key s.fresh
        heap := Function.update s.heap s.fresh {}
        fresh := s.fresh + 1 })

/-- `ledgeredGateFor`, for a new call. -/
def ledgeredGateFor (s : State) (key : String) : State :=
  let (gate, s) := s.lookOrMake key
  let s := s.update gate (fun g => { g with refs := g.refs + 1 })
  { s with calls := s.calls ++ [⟨key, gate, .looked⟩] }

/-- `unrefLedgeredKey`. -/
def unrefLedgeredKey (s : State) (key : String) (gate : Nat) : State :=
  let s := s.update gate (fun g => { g with refs := g.refs - 1 })
  if (s.heap gate).refs ≤ 0 then { s with table := s.table.erase key } else s

variable (s : State) (key : String) (gate : Nat)

theorem unref_calls : (s.unrefLedgeredKey key gate).calls = s.calls := by
  unfold unrefLedgeredKey
  dsimp only
  split <;> rfl

theorem unref_fresh : (s.unrefLedgeredKey key gate).fresh = s.fresh := by
  unfold unrefLedgeredKey
  dsimp only
  split <;> rfl

theorem unref_heap : (s.unrefLedgeredKey key gate).heap =
    Function.update s.heap gate { s.heap gate with refs := (s.heap gate).refs - 1 } := by
  unfold unrefLedgeredKey
  dsimp only
  split <;> rfl

theorem unref_table : (s.unrefLedgeredKey key gate).table =
    if (s.heap gate).refs - 1 ≤ 0 then s.table.erase key else s.table := by
  have hrefs : ((s.update gate (fun g => { g with refs := g.refs - 1 })).heap gate).refs =
      (s.heap gate).refs - 1 := by
    show (Function.update s.heap gate _ gate).refs = _
    rw [Function.update_self]
  unfold unrefLedgeredKey
  simp only [hrefs]
  split <;> rfl

end State

/-! ## Section 2: The steps -/

/-- The atomic steps; a call is named by its place in the list. -/
inductive Label where
  | look (key : String)
  | tryLock (i : Nat)
  | unlock (i : Nat)
  | unref (i : Nat)
deriving DecidableEq

/-- `tryAcquireLedgeredKey` and `releaseLedgeredKey`, step by step. -/
def step (s : State) : Label → Option State
  | .look key => some (s.ledgeredGateFor key)
  | .tryLock i =>
    match s.calls[i]? with
    | some ⟨key, gate, .looked⟩ =>
      if (s.heap gate).locked then some { s with calls := s.calls.set i ⟨key, gate, .refused⟩ }
      else
        let s := s.update gate (fun g => { g with locked := true })
        some { s with calls := s.calls.set i ⟨key, gate, .holding⟩ }
    | _ => none
  | .unlock i =>
    match s.calls[i]? with
    | some ⟨key, gate, .holding⟩ =>
      let s := s.update gate (fun g => { g with locked := false })
      some { s with calls := s.calls.set i ⟨key, gate, .unlocked⟩ }
    | _ => none
  | .unref i =>
    match s.calls[i]? with
    | some ⟨key, gate, .refused⟩ | some ⟨key, gate, .unlocked⟩ =>
      let s := s.unrefLedgeredKey key gate
      some { s with calls := s.calls.eraseIdx i }
    | _ => none

/-- Calls on any keys, in any interleaving. -/
def gates : System State Label where
  init s := s = {}
  step := step

/-! ### What a step can do -/

/-- Two states differ in the stage of one call, and in mutexes. -/
structure Moves (s s' : State) (key : String) (gate : Nat) (stage stage' : Stage) : Prop where
  table : s'.table = s.table
  fresh : s'.fresh = s.fresh
  refs : ∀ g, (s'.heap g).refs = (s.heap g).refs
  calls : ∃ others, s.calls.Perm (⟨key, gate, stage⟩ :: others) ∧
    s'.calls.Perm (⟨key, gate, stage'⟩ :: others)

/-- Two states differ by one reference that is dropped, with its call. -/
structure Drops (s s' : State) (key : String) (gate : Nat) (stage : Stage)
    (others : List Call) : Prop where
  table : s'.table = (s.unrefLedgeredKey key gate).table
  heap : s'.heap = (s.unrefLedgeredKey key gate).heap
  fresh : s'.fresh = (s.unrefLedgeredKey key gate).fresh
  before : s.calls.Perm (⟨key, gate, stage⟩ :: others)
  after : s'.calls.Perm others

/-- **The steps.** A step starts a call, moves one to its next stage or ends
    one. -/
inductive Effect (s s' : State) : Prop where
  | look (key : String) : s' = s.ledgeredGateFor key → Effect s s'
  | refuse (key : String) (gate : Nat) : Moves s s' key gate .looked .refused →
      (s.heap gate).locked = true → (∀ g, (s'.heap g).locked = (s.heap g).locked) → Effect s s'
  | acquire (key : String) (gate : Nat) : Moves s s' key gate .looked .holding →
      (s.heap gate).locked = false →
      (∀ g, (s'.heap g).locked = if g = gate then true else (s.heap g).locked) → Effect s s'
  | unlock (key : String) (gate : Nat) : Moves s s' key gate .holding .unlocked →
      (∀ g, (s'.heap g).locked = if g = gate then false else (s.heap g).locked) → Effect s s'
  | unref (key : String) (gate : Nat) (stage : Stage) (others : List Call) : stage ≠ .holding →
      Drops s s' key gate stage others → Effect s s'

theorem perm_eraseIdx {calls : List Call} {i : Nat} {call : Call} (h : calls[i]? = some call) :
    calls.Perm (call :: calls.eraseIdx i) := by
  obtain ⟨hi, rfl⟩ := List.getElem?_eq_some_iff.1 h
  exact (List.getElem_cons_eraseIdx_perm hi).symm

theorem moves_set {s : State} {i : Nat} {key : String} {gate : Nat} {stage : Stage}
    (h : s.calls[i]? = some ⟨key, gate, stage⟩) (stage' : Stage) (heap : Nat → Gate)
    (hrefs : ∀ g, (heap g).refs = (s.heap g).refs) :
    Moves s { s with heap := heap, calls := s.calls.set i ⟨key, gate, stage'⟩ }
      key gate stage stage' := by
  obtain ⟨hi, -⟩ := List.getElem?_eq_some_iff.1 h
  exact ⟨rfl, rfl, hrefs, _, perm_eraseIdx h, List.set_perm_cons_eraseIdx hi _⟩

theorem refs_update_locked (s : State) (gate : Nat) (b : Bool) (g : Nat) :
    (Function.update s.heap gate { s.heap gate with locked := b } g).refs = (s.heap g).refs := by
  by_cases hg : g = gate
  · rw [hg, Function.update_self]
  · rw [Function.update_of_ne hg]

theorem locked_update_locked (s : State) (gate : Nat) (b : Bool) (g : Nat) :
    (Function.update s.heap gate { s.heap gate with locked := b } g).locked =
      if g = gate then b else (s.heap g).locked := by
  by_cases hg : g = gate
  · rw [hg, Function.update_self, if_pos rfl]
  · rw [Function.update_of_ne hg, if_neg hg]

theorem step_effect {s s' : State} {label : Label} (h : step s label = some s') : Effect s s' := by
  match label with
  | .look key => exact .look key (Option.some.inj h).symm
  | .tryLock i =>
    simp only [step] at h
    split at h
    case h_2 => cases h
    case h_1 key gate hcall =>
    split at h
    case isTrue hlocked =>
      obtain rfl := Option.some.inj h
      exact .refuse key gate (moves_set hcall .refused s.heap (fun _ => rfl)) hlocked (fun _ => rfl)
    case isFalse hfree =>
      obtain rfl := Option.some.inj h
      exact .acquire key gate (moves_set hcall .holding _ (refs_update_locked s gate true))
        (Bool.eq_false_of_not_eq_true hfree) (locked_update_locked s gate true)
  | .unlock i =>
    simp only [step] at h
    split at h
    case h_2 => cases h
    case h_1 key gate hcall =>
    obtain rfl := Option.some.inj h
    exact .unlock key gate (moves_set hcall .unlocked _ (refs_update_locked s gate false))
      (locked_update_locked s gate false)
  | .unref i =>
    simp only [step] at h
    split at h
    case h_1 key gate hcall =>
      obtain rfl := Option.some.inj h
      exact .unref key gate .refused (s.calls.eraseIdx i) (by decide)
        ⟨rfl, rfl, rfl, perm_eraseIdx hcall, by rw [State.unref_calls]⟩
    case h_2 key gate hcall =>
      obtain rfl := Option.some.inj h
      exact .unref key gate .unlocked (s.calls.eraseIdx i) (by decide)
        ⟨rfl, rfl, rfl, perm_eraseIdx hcall, by rw [State.unref_calls]⟩
    case h_3 => cases h

/-! ## Section 3: The invariant -/

/-- A call publishes under a gate. -/
def holdsGate (gate : Nat) (call : Call) : Bool := call.gate = gate ∧ call.stage = .holding

/-- How the table, the counts, the mutexes and the calls belong together. -/
structure Consistent (s : State) : Prop where
  /-- The table maps the key of every call to the gate of the call. -/
  entry : ∀ call ∈ s.calls, s.table[call.key]? = some call.gate
  /-- A gate belongs to one key. -/
  owner : ∀ a ∈ s.calls, ∀ b ∈ s.calls, a.gate = b.gate → a.key = b.key
  /-- Every entry of the table is used by a call. -/
  used : ∀ key gate, s.table[key]? = some gate → ∃ call ∈ s.calls, call.key = key
  /-- The count of a gate is the number of its calls. -/
  refs : ∀ gate, (s.heap gate).refs = s.calls.countP (fun call => call.gate = gate)
  /-- A locked gate has one holder, and an unlocked one has none. -/
  held : ∀ gate, s.calls.countP (holdsGate gate) = if (s.heap gate).locked then 1 else 0
  allocated : ∀ call ∈ s.calls, call.gate < s.fresh

theorem consistent_init : Consistent {} where
  entry := fun _ h => absurd h List.not_mem_nil
  owner := fun _ h => absurd h List.not_mem_nil
  used := fun key gate h => by
    rw [lookup_empty] at h
    cases h
  refs := fun _ => rfl
  held := fun _ => rfl
  allocated := fun _ h => absurd h List.not_mem_nil

/-! ### Moving a call -/

theorem Moves.mem {s s' : State} {key : String} {gate : Nat} {stage stage' : Stage}
    (h : Moves s s' key gate stage stage') {call : Call} (hcall : call ∈ s'.calls) :
    ∃ old ∈ s.calls, old.key = call.key ∧ old.gate = call.gate := by
  obtain ⟨others, hcalls, hcalls'⟩ := h.calls
  rcases List.mem_cons.1 (hcalls'.mem_iff.1 hcall) with rfl | hother
  · exact ⟨_, hcalls.mem_iff.2 List.mem_cons_self, rfl, rfl⟩
  · exact ⟨call, hcalls.mem_iff.2 (List.mem_cons_of_mem _ hother), rfl, rfl⟩

theorem Moves.symm {s s' : State} {key : String} {gate : Nat} {stage stage' : Stage}
    (h : Moves s s' key gate stage stage') : Moves s' s key gate stage' stage := by
  obtain ⟨others, hcalls, hcalls'⟩ := h.calls
  exact ⟨h.table.symm, h.fresh.symm, fun g => (h.refs g).symm, others, hcalls', hcalls⟩

theorem Consistent.move {s s' : State} {key : String} {gate : Nat} {stage stage' : Stage}
    (h : Consistent s) (hmove : Moves s s' key gate stage stage')
    (hheld : ∀ g, s'.calls.countP (holdsGate g) = if (s'.heap g).locked then 1 else 0) :
    Consistent s' where
  entry := by
    intro call hcall
    obtain ⟨old, hold, hkey, hgate⟩ := hmove.mem hcall
    rw [hmove.table, ← hkey, ← hgate]
    exact h.entry old hold
  owner := by
    intro a ha b hb hab
    obtain ⟨a', ha', hakey, hagate⟩ := hmove.mem ha
    obtain ⟨b', hb', hbkey, hbgate⟩ := hmove.mem hb
    rw [← hakey, ← hbkey]
    exact h.owner a' ha' b' hb' (by rw [hagate, hbgate, hab])
  used := by
    intro key' gate' hentry
    rw [hmove.table] at hentry
    obtain ⟨call, hcall, hkey⟩ := h.used key' gate' hentry
    obtain ⟨new, hnew, hkey', -⟩ := hmove.symm.mem hcall
    exact ⟨new, hnew, hkey'.trans hkey⟩
  refs := by
    intro g
    obtain ⟨others, hcalls, hcalls'⟩ := hmove.calls
    rw [hmove.refs, h.refs, hcalls.countP_eq, hcalls'.countP_eq, List.countP_cons, List.countP_cons]
  held := hheld
  allocated := by
    intro call hcall
    obtain ⟨old, hold, -, hgate⟩ := hmove.mem hcall
    rw [hmove.fresh, ← hgate]
    exact h.allocated old hold

theorem Moves.holders {s s' : State} {key : String} {gate : Nat} {stage stage' : Stage}
    (h : Moves s s' key gate stage stage') (g : Nat) :
    s'.calls.countP (holdsGate g) + (if g = gate ∧ stage = .holding then 1 else 0) =
      s.calls.countP (holdsGate g) + (if g = gate ∧ stage' = .holding then 1 else 0) := by
  obtain ⟨others, hcalls, hcalls'⟩ := h.calls
  have hone : ∀ stage : Stage, (if holdsGate g ⟨key, gate, stage⟩ then 1 else 0) =
      if g = gate ∧ stage = .holding then 1 else 0 := by
    intro stage
    simp only [holdsGate, decide_eq_true_eq, @eq_comm Nat gate g]
  rw [hcalls.countP_eq, hcalls'.countP_eq, List.countP_cons, List.countP_cons, hone, hone]
  omega

theorem Consistent.refuse {s s' : State} {key : String} {gate : Nat} (h : Consistent s)
    (hmove : Moves s s' key gate .looked .refused)
    (hlocks : ∀ g, (s'.heap g).locked = (s.heap g).locked) : Consistent s' := by
  apply h.move hmove
  intro g
  have hholders := hmove.holders g
  simp only [reduceCtorEq, and_false, if_false, Nat.add_zero] at hholders
  rw [hholders, h.held, hlocks]

theorem Consistent.acquire {s s' : State} {key : String} {gate : Nat} (h : Consistent s)
    (hmove : Moves s s' key gate .looked .holding) (hfree : (s.heap gate).locked = false)
    (hlocks : ∀ g, (s'.heap g).locked = if g = gate then true else (s.heap g).locked) :
    Consistent s' := by
  apply h.move hmove
  intro g
  have hholders := hmove.holders g
  simp only [reduceCtorEq, and_false, if_false, Nat.add_zero, and_true] at hholders
  rw [hholders, h.held, hlocks]
  by_cases hg : g = gate
  · subst hg
    rw [hfree, if_pos rfl, if_pos rfl]
    rfl
  · rw [if_neg hg, if_neg hg, Nat.add_zero]

theorem Consistent.locked_of_holding {s : State} (h : Consistent s) {call : Call}
    (hcall : call ∈ s.calls) (hstage : call.stage = .holding) :
    (s.heap call.gate).locked = true := by
  have hpos : 0 < s.calls.countP (holdsGate call.gate) :=
    List.countP_pos_iff.2 ⟨call, hcall, decide_eq_true ⟨rfl, hstage⟩⟩
  rw [h.held] at hpos
  by_contra hunlocked
  rw [if_neg hunlocked] at hpos
  omega

theorem Consistent.unlock {s s' : State} {key : String} {gate : Nat} (h : Consistent s)
    (hmove : Moves s s' key gate .holding .unlocked)
    (hlocks : ∀ g, (s'.heap g).locked = if g = gate then false else (s.heap g).locked) :
    Consistent s' := by
  obtain ⟨others, hcalls, -⟩ := hmove.calls
  have hlocked := h.locked_of_holding (hcalls.mem_iff.2 List.mem_cons_self) rfl
  apply h.move hmove
  intro g
  have hholders := hmove.holders g
  simp only [reduceCtorEq, and_false, if_false, Nat.add_zero, and_true] at hholders
  rw [h.held] at hholders
  rw [hlocks]
  by_cases hg : g = gate
  · subst hg
    dsimp only at hlocked
    rw [hlocked, if_pos rfl, if_pos rfl] at hholders
    rw [if_pos rfl]
    show _ = 0
    omega
  · rw [if_neg hg, Nat.add_zero] at hholders
    rw [if_neg hg, hholders]

/-! ### Taking and dropping a reference -/

theorem Consistent.join {s : State} (h : Consistent s) {key : String} {gate : Nat}
    (hentry : s.table[key]? = some gate) :
    Consistent { s.update gate (fun g => { g with refs := g.refs + 1 }) with
      calls := s.calls ++ [⟨key, gate, .looked⟩] } := by
  -- Some call brought the entry into the table, or has kept it there.
  obtain ⟨user, huser, hkey⟩ := h.used key gate hentry
  have hgate : user.gate = gate := by
    have huserEntry := h.entry user huser
    rw [hkey, hentry] at huserEntry
    exact (Option.some.inj huserEntry).symm
  have hcases : ∀ {call : Call}, call ∈ s.calls ++ [⟨key, gate, .looked⟩] →
      ∃ old ∈ s.calls, old.key = call.key ∧ old.gate = call.gate := by
    intro call hcall
    rcases List.mem_append.1 hcall with hold | hnew
    · exact ⟨call, hold, rfl, rfl⟩
    · obtain rfl := List.mem_singleton.1 hnew
      exact ⟨user, huser, hkey, hgate⟩
  constructor
  case entry =>
    intro call hcall
    obtain ⟨old, hold, hk, hg⟩ := hcases hcall
    rw [← hk, ← hg]
    exact h.entry old hold
  case owner =>
    intro a ha b hb hab
    obtain ⟨a', ha', hak, hag⟩ := hcases ha
    obtain ⟨b', hb', hbk, hbg⟩ := hcases hb
    rw [← hak, ← hbk]
    exact h.owner a' ha' b' hb' (by rw [hag, hbg, hab])
  case used =>
    intro key' gate' hentry'
    obtain ⟨call, hcall, hcallKey⟩ := h.used key' gate' hentry'
    exact ⟨call, List.mem_append_left _ hcall, hcallKey⟩
  case refs =>
    intro g
    rw [List.countP_append, List.countP_singleton]
    show (Function.update s.heap gate _ g).refs = _
    by_cases hg : g = gate
    · subst hg
      rw [Function.update_self, if_pos (by simp)]
      have hrefs := h.refs g
      push_cast
      omega
    · rw [Function.update_of_ne hg, h.refs g, if_neg (by simpa using Ne.symm hg)]
      push_cast
      omega
  case held =>
    intro g
    rw [List.countP_append, List.countP_singleton, if_neg (by simp [holdsGate]), h.held g]
    show _ = if (Function.update s.heap gate _ g).locked then 1 else 0
    by_cases hg : g = gate
    · subst hg
      rw [Function.update_self, Nat.add_zero]
    · rw [Function.update_of_ne hg, Nat.add_zero]
  case allocated =>
    intro call hcall
    obtain ⟨old, hold, -, hg⟩ := hcases hcall
    rw [← hg]
    exact h.allocated old hold

theorem Consistent.countP_fresh {s : State} (h : Consistent s) (p : Call → Bool)
    (hp : ∀ call, p call = true → call.gate = s.fresh) : s.calls.countP p = 0 := by
  rw [List.countP_eq_zero]
  intro call hcall hpcall
  have halloc := h.allocated call hcall
  rw [hp call hpcall] at halloc
  omega

theorem Consistent.found {s : State} (h : Consistent s) {key : String}
    (habsent : s.table[key]? = none) :
    Consistent { table := s.table.insert key s.fresh
                 heap := Function.update s.heap s.fresh { refs := 1 }
                 fresh := s.fresh + 1
                 calls := s.calls ++ [⟨key, s.fresh, .looked⟩] } := by
  have hother : ∀ call ∈ s.calls, key ≠ call.key := by
    rintro call hcall rfl
    rw [h.entry call hcall] at habsent
    cases habsent
  constructor
  case entry =>
    intro call hcall
    rcases List.mem_append.1 hcall with hold | hnew
    · show (s.table.insert key s.fresh)[call.key]? = _
      rw [lookup_insert_ne _ _ (hother call hold)]
      exact h.entry call hold
    · obtain rfl := List.mem_singleton.1 hnew
      exact lookup_insert_self _ _ _
  case owner =>
    intro a ha b hb hab
    rcases List.mem_append.1 ha with ha | ha <;> rcases List.mem_append.1 hb with hb | hb
    · exact h.owner a ha b hb hab
    · obtain rfl := List.mem_singleton.1 hb
      have halloc := h.allocated a ha
      rw [hab] at halloc
      exact absurd halloc (Nat.lt_irrefl _)
    · obtain rfl := List.mem_singleton.1 ha
      have halloc := h.allocated b hb
      rw [← hab] at halloc
      exact absurd halloc (Nat.lt_irrefl _)
    · rw [List.mem_singleton.1 ha, List.mem_singleton.1 hb]
  case used =>
    intro key' gate' hentry
    by_cases hkey : key = key'
    · subst hkey
      exact ⟨_, List.mem_append_right _ List.mem_cons_self, rfl⟩
    · have hold : s.table[key']? = some gate' := by rwa [← lookup_insert_ne s.table s.fresh hkey]
      obtain ⟨call, hcall, hcallKey⟩ := h.used key' gate' hold
      exact ⟨call, List.mem_append_left _ hcall, hcallKey⟩
  case refs =>
    intro g
    rw [List.countP_append, List.countP_singleton]
    show (Function.update s.heap s.fresh _ g).refs = _
    by_cases hg : g = s.fresh
    · subst hg
      rw [Function.update_self, h.countP_fresh _ (fun _ => of_decide_eq_true), if_pos (by simp)]
      rfl
    · rw [Function.update_of_ne hg, h.refs g, if_neg (by simpa using Ne.symm hg)]
      push_cast
      omega
  case held =>
    intro g
    rw [List.countP_append, List.countP_singleton, if_neg (by simp [holdsGate]), Nat.add_zero]
    show _ = if (Function.update s.heap s.fresh _ g).locked then 1 else 0
    by_cases hg : g = s.fresh
    · subst hg
      rw [Function.update_self, h.countP_fresh _ (fun _ hc => (of_decide_eq_true hc).1)]
      rfl
    · rw [Function.update_of_ne hg, h.held g]
  case allocated =>
    intro call hcall
    show call.gate < s.fresh + 1
    rcases List.mem_append.1 hcall with hold | hnew
    · exact Nat.lt_succ_of_lt (h.allocated call hold)
    · obtain rfl := List.mem_singleton.1 hnew
      exact Nat.lt_succ_self _

theorem Consistent.look {s : State} (h : Consistent s) (key : String) :
    Consistent (s.ledgeredGateFor key) := by
  unfold State.ledgeredGateFor State.lookOrMake
  match hentry : s.table[key]? with
  | some gate => exact h.join hentry
  | none =>
    have hfound := h.found hentry
    dsimp only [State.update]
    rw [Function.update_self, Function.update_idem]
    exact hfound

section Dropping

variable {s s' : State} {key : String} {gate : Nat} {stage : Stage} {others : List Call}

theorem Drops.refs_eq (hdrop : Drops s s' key gate stage others) (h : Consistent s) (g : Nat) :
    (s'.heap g).refs = others.countP (fun call => call.gate = g) := by
  have hbefore := h.refs g
  rw [hdrop.before.countP_eq, List.countP_cons] at hbefore
  rw [hdrop.heap, State.unref_heap]
  by_cases hg : g = gate
  · subst hg
    rw [if_pos (by simp)] at hbefore
    rw [Function.update_self]
    show (s.heap g).refs - 1 = _
    push_cast at hbefore
    omega
  · rw [if_neg (by simpa using Ne.symm hg)] at hbefore
    rw [Function.update_of_ne hg]
    push_cast at hbefore
    omega

theorem Drops.table_eq (hdrop : Drops s s' key gate stage others) (h : Consistent s) :
    s'.table = if others.countP (fun call => call.gate = gate) = 0 then s.table.erase key
      else s.table := by
  have hcount := hdrop.refs_eq h gate
  rw [hdrop.heap, State.unref_heap, Function.update_self] at hcount
  dsimp only at hcount
  rw [hdrop.table, State.unref_table]
  exact if_congr (by omega) rfl rfl

theorem Drops.locked_eq (hdrop : Drops s s' key gate stage others) (g : Nat) :
    (s'.heap g).locked = (s.heap g).locked := by
  rw [hdrop.heap, State.unref_heap]
  by_cases hg : g = gate
  · rw [hg, Function.update_self]
  · rw [Function.update_of_ne hg]

theorem Drops.mem (hdrop : Drops s s' key gate stage others) {call : Call}
    (hcall : call ∈ s'.calls) : call ∈ s.calls :=
  hdrop.before.mem_iff.2 (List.mem_cons_of_mem _ (hdrop.after.mem_iff.1 hcall))

theorem Consistent.unref (h : Consistent s) (hstage : stage ≠ .holding)
    (hdrop : Drops s s' key gate stage others) : Consistent s' := by
  have hself : (⟨key, gate, stage⟩ : Call) ∈ s.calls := hdrop.before.mem_iff.2 List.mem_cons_self
  constructor
  case entry =>
    intro call hcall
    have hentry := h.entry call (hdrop.mem hcall)
    rw [hdrop.table_eq h]
    split
    case isTrue hnone =>
      have hne : key ≠ call.key := by
        intro hkey
        have hgate : call.gate = gate := by
          have hselfEntry := h.entry _ hself
          dsimp only at hselfEntry
          rw [hkey, hentry] at hselfEntry
          exact Option.some.inj hselfEntry
        exact (List.countP_eq_zero.1 hnone) call (hdrop.after.mem_iff.1 hcall) (decide_eq_true hgate)
      rw [lookup_erase, if_neg hne]
      exact hentry
    case isFalse => exact hentry
  case owner =>
    intro a ha b hb hab
    exact h.owner a (hdrop.mem ha) b (hdrop.mem hb) hab
  case used =>
    intro key' gate' hentry
    rw [hdrop.table_eq h] at hentry
    split at hentry
    case isTrue hnone =>
      rw [lookup_erase] at hentry
      split at hentry
      · cases hentry
      case isFalse hkey =>
      obtain ⟨call, hcall, hcallKey⟩ := h.used key' gate' hentry
      rcases List.mem_cons.1 (hdrop.before.mem_iff.1 hcall) with rfl | hother
      · exact absurd hcallKey hkey
      · exact ⟨call, hdrop.after.mem_iff.2 hother, hcallKey⟩
    case isFalse hsome =>
      obtain ⟨call, hcall, hcallKey⟩ := h.used key' gate' hentry
      rcases List.mem_cons.1 (hdrop.before.mem_iff.1 hcall) with rfl | hother
      · -- Another call of the gate is left, and it is of the same key.
        obtain ⟨rest, hrest, hgate⟩ := List.countP_pos_iff.1 (Nat.pos_of_ne_zero hsome)
        refine ⟨rest, hdrop.after.mem_iff.2 hrest, ?_⟩
        rw [← hcallKey]
        exact h.owner rest (hdrop.mem (hdrop.after.mem_iff.2 hrest)) _ hself (of_decide_eq_true hgate)
      · exact ⟨call, hdrop.after.mem_iff.2 hother, hcallKey⟩
  case refs =>
    intro g
    rw [hdrop.refs_eq h, hdrop.after.countP_eq]
  case held =>
    intro g
    have hbefore := h.held g
    rw [hdrop.before.countP_eq, List.countP_cons,
      if_neg (by simpa [holdsGate] using fun _ => hstage), Nat.add_zero] at hbefore
    rw [hdrop.after.countP_eq, hbefore, hdrop.locked_eq]
  case allocated =>
    intro call hcall
    rw [hdrop.fresh, State.unref_fresh]
    exact h.allocated call (hdrop.mem hcall)

end Dropping

/-! ## Section 4: Every run -/

theorem step_consistent {s s' : State} (h : Consistent s) (heffect : Effect s s') :
    Consistent s' := by
  match heffect with
  | .look key hs' =>
    rw [hs']
    exact h.look key
  | .refuse _ _ hmove _ hlocks => exact h.refuse hmove hlocks
  | .acquire _ _ hmove hfree hlocks => exact h.acquire hmove hfree hlocks
  | .unlock _ _ hmove hlocks => exact h.unlock hmove hlocks
  | .unref _ _ _ _ hstage hdrop => exact h.unref hstage hdrop

theorem gates_consistent {s : State} (h : gates.Reachable s) : Consistent s := by
  apply h.invariant
  · rintro s rfl
    exact consistent_init
  · intro s label s' _ hs _ hstep
    exact step_consistent hs (step_effect hstep)

/-- A call publishes the event of a key. -/
def holdsKey (key : String) (call : Call) : Bool := call.key = key ∧ call.stage = .holding

theorem Consistent.exclusive {s : State} (h : Consistent s) (key : String) :
    s.calls.countP (holdsKey key) ≤ 1 := by
  by_cases hnone : s.calls.countP (holdsKey key) = 0
  · omega
  obtain ⟨call, hcall, hholds⟩ := List.countP_pos_iff.1 (Nat.pos_of_ne_zero hnone)
  obtain ⟨rfl, -⟩ := of_decide_eq_true hholds
  calc s.calls.countP (holdsKey call.key)
      ≤ s.calls.countP (holdsGate call.gate) := by
        apply List.countP_mono_left
        intro other hother hkey
        obtain ⟨hkey, hstage⟩ := of_decide_eq_true hkey
        have hentry := h.entry other hother
        rw [hkey, h.entry call hcall] at hentry
        exact decide_eq_true ⟨(Option.some.inj hentry).symm, hstage⟩
    _ = if (s.heap call.gate).locked then 1 else 0 := h.held call.gate
    _ ≤ 1 := by split <;> omega

theorem Consistent.look_same {s : State} (h : Consistent s) {call : Call} (hcall : call ∈ s.calls) :
    (s.ledgeredGateFor call.key).calls = s.calls ++ [⟨call.key, call.gate, .looked⟩] := by
  unfold State.ledgeredGateFor State.lookOrMake
  rw [h.entry call hcall]
  rfl

theorem Consistent.table_empty {s : State} (h : Consistent s) (hcalls : s.calls = []) :
    s.table = ∅ := by
  apply ext_lookup
  intro key
  rw [lookup_empty]
  match hentry : s.table[key]? with
  | none => rfl
  | some gate =>
    obtain ⟨call, hcall, -⟩ := h.used key gate hentry
    rw [hcalls] at hcall
    exact absurd hcall List.not_mem_nil

/-- **The gates.** After any interleaving, at most one call of a key
    publishes; the gate of every call in progress is the one in the table, and
    the one that any further call of its key gets; and when no call is in
    progress the table is empty. -/
theorem publication_gates {s : State} (h : gates.Reachable s) :
    (∀ key, s.calls.countP (holdsKey key) ≤ 1) ∧
    (∀ call ∈ s.calls, s.table[call.key]? = some call.gate ∧
      ∀ s', gates.step s (.look call.key) = some s' →
        s'.calls = s.calls ++ [⟨call.key, call.gate, .looked⟩]) ∧
    (s.calls = [] → s.table = ∅) := by
  have hs := gates_consistent h
  refine ⟨hs.exclusive, ?_, hs.table_empty⟩
  intro call hcall
  refine ⟨hs.entry call hcall, ?_⟩
  intro s' hstep
  rw [← Option.some.inj hstep]
  exact hs.look_same hcall

/-- Two publishers of one event meet; the second is refused. -/
def meeting : List Label := [.look "e", .look "e", .tryLock 1, .tryLock 0]

theorem meeting_exclusive :
    ∃ s, gates.exec {} meeting = some s ∧ gates.Reachable s ∧
      s.calls = [⟨"e", 0, .refused⟩, ⟨"e", 0, .holding⟩] ∧
      s.calls.countP (holdsKey "e") ≤ 1 := by
  have hrun : ∃ s, gates.exec {} meeting = some s ∧
      s.calls = [⟨"e", 0, .refused⟩, ⟨"e", 0, .holding⟩] := ⟨_, rfl, rfl⟩
  obtain ⟨s, hexec, hcalls⟩ := hrun
  have hreach : gates.Reachable s := System.Reachable.exec (.init rfl) hexec
  exact ⟨s, hexec, hreach, hcalls, (publication_gates hreach).1 "e"⟩

/-- **Refusals.** `TryLock` fails exactly if another call publishes the event
    of the key. -/
theorem refused_iff {s s' : State} {i : Nat} {key : String} {gate : Nat}
    (h : gates.Reachable s) (hcall : s.calls[i]? = some ⟨key, gate, .looked⟩)
    (hstep : gates.step s (.tryLock i) = some s') :
    s'.calls[i]? = some ⟨key, gate, .refused⟩ ↔ ∃ call ∈ s.calls, holdsKey key call = true := by
  have hs := gates_consistent h
  obtain ⟨hi, -⟩ := List.getElem?_eq_some_iff.1 hcall
  have hentry := hs.entry _ (List.mem_of_getElem? hcall)
  dsimp only at hentry
  have hholder : (s.heap gate).locked = true ↔ ∃ call ∈ s.calls, holdsKey key call = true := by
    constructor
    · intro hlocked
      have hone : 0 < s.calls.countP (holdsGate gate) := by
        rw [hs.held gate, if_pos hlocked]
        exact Nat.one_pos
      obtain ⟨call, hmem, hholds⟩ := List.countP_pos_iff.1 hone
      obtain ⟨hgate, hstage⟩ := of_decide_eq_true hholds
      exact ⟨call, hmem, decide_eq_true
        ⟨hs.owner call hmem _ (List.mem_of_getElem? hcall) hgate, hstage⟩⟩
    · rintro ⟨call, hmem, hholds⟩
      obtain ⟨hkey, hstage⟩ := of_decide_eq_true hholds
      have hsame := hs.entry call hmem
      rw [hkey, hentry] at hsame
      rw [Option.some.inj hsame]
      exact hs.locked_of_holding hmem hstage
  rw [← hholder]
  simp only [gates, step, hcall] at hstep
  split at hstep
  case isTrue hlocked =>
    rw [← Option.some.inj hstep]
    simp [hi, hlocked]
  case isFalse hfree =>
    rw [← Option.some.inj hstep]
    simp [State.update, hi, hfree]

/-- In `meeting`, the second publisher is refused because the first one holds
    the gate. -/
theorem meeting_refused :
    ∃ s s', gates.exec {} (meeting.take 3) = some s ∧ gates.step s (.tryLock 0) = some s' ∧
      ∃ call ∈ s.calls, holdsKey "e" call = true := by
  have hrun : ∃ s s', gates.exec {} (meeting.take 3) = some s ∧
      s.calls[0]? = some ⟨"e", 0, .looked⟩ ∧ gates.step s (.tryLock 0) = some s' ∧
      s'.calls[0]? = some ⟨"e", 0, .refused⟩ := ⟨_, _, rfl, rfl, rfl, rfl⟩
  obtain ⟨s, s', hexec, hcall, hstep, hrefused⟩ := hrun
  have hreach : gates.Reachable s := System.Reachable.exec (.init rfl) hexec
  exact ⟨s, s', hexec, hstep, (refused_iff hreach hcall hstep).1 hrefused⟩

end AuditGovernance.LedgeredGate
