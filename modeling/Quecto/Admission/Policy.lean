/-
  Admission/Policy.lean --- the operations of `AdmissionPolicy`: requests, dispatch and
  recovery; and whom `candidate` chooses.

  Source: `domain/admission/services/inference_admission_policy.rs` and
  `inference_admission_recovery.rs`.
-/
import Quecto.Admission.State

namespace Quecto.Admission

open Foundation List Std.ExtTreeMap OrdMap

abbrev Answer (α : Type) : Type := Except AdmissionError α × AdmissionPolicy

namespace AdmissionPolicy

/-! ## The clock -/

variable (p : AdmissionPolicy)

def clearLease (id : RequestId) : AdmissionPolicy :=
  (p.terminal id .cancelled none).withRequest id fun r => { r with leaseCleared := true }

def leaseElapsed (now : Nat) (id : RequestId) (since : Nat) : Bool :=
  (p.leaseEnd id since).any fun release => decide (release ≤ now)

def elapsedLeases (now : Nat) : List RequestId :=
  p.groups.toList.flatMap fun e => e.2.uncertain.keysWith (p.leaseElapsed now)

def dropElapsedOrphans (now : Nat) : AdmissionPolicy :=
  { p with
    groups := p.groups.map fun _ g =>
      { g with orphans := g.orphans.filter fun o => decide (now < o.releaseAt) } }

def clearElapsedLeases (now : Nat) : AdmissionPolicy :=
  ((p.elapsedLeases now).foldl clearLease p).dropElapsedOrphans now

def expireWait (id : RequestId) : AdmissionPolicy :=
  let held := (p.requests[id]?).bind fun r => p.holdOf r.group
  (p.terminal id .timedOut none).withRequest id fun r => { r with held := held }

def elapsedWaits (now : Nat) : List RequestId :=
  p.requests.keysWith fun _ r => r.waitElapsed now

def expireWaits (now : Nat) : AdmissionPolicy :=
  (p.elapsedWaits now).foldl expireWait p

def flagOverdue (p : AdmissionPolicy) (now : Nat) : AdmissionPolicy :=
  { p with requests := p.requests.map fun _ r => r.flagOverdue now }

def atTime (now : Nat) : AdmissionPolicy := { p with now := now }

/-- What an observation at `now` does.  Leases clear before queue expiry, so a
wait expiring at the same instant is held only by leases that still hold. -/
def advance (now : Nat) : AdmissionPolicy :=
  (((p.atTime now).clearElapsedLeases now).expireWaits now).flagOverdue now

def tick (now : Nat) : Except AdmissionError AdmissionPolicy :=
  if now < p.now then .error .timeRegression else .ok (p.advance now)

def enter (scope : ScopeId) (now : Nat) : Except AdmissionError AdmissionPolicy :=
  match p.scope scope with
  | .error e => .error e
  | .ok _ => p.tick now

/-! ## Scopes -/

def register (root : Option ScopeId) (workload : WorkloadClass) : Answer ScopeId :=
  let live := p.scopes.count fun _ s => !s.retired
  if p.config.maxScopes ≤ live then (.error .scopeLimit, p)
  else
    match checkedAdd p.nextSerial 1 with
    | none => (.error .scopeLimit, p)
    | some serial =>
        let id : ScopeId := ⟨p.epoch, serial⟩
        (.ok id,
          { p with
            nextSerial := serial
            scopes := p.scopes.insert id
              { root := root.getD id, workloadClass := workload, highWater := 0,
                retired := false } })

def registerRoot (workload : WorkloadClass) : Answer ScopeId :=
  p.register none workload

def registerChild (parent : ScopeId) : Answer ScopeId :=
  match p.scope parent with
  | .error e => (.error e, p)
  | .ok s => p.register (some s.root) .background

def retire (scope : ScopeId) : Answer Unit :=
  match p.scope scope with
  | .error e => (.error e, p)
  | .ok _ =>
      if 0 < p.requests.count fun id r => id.scope == scope && r.state.isActive then
        (.error .busy, p)
      else
        let queued := p.requests.keysWith fun id r => id.scope == scope && r.state.isQueued
        let p := queued.foldl (fun p id => p.terminal id .cancelled none) p
        (.ok (), { p with scopes := p.scopes.modify scope fun s => { s with retired := true } })

def highWater (p : AdmissionPolicy) (scope : ScopeId) : Except AdmissionError Nat :=
  match p.scope scope with
  | .error e => .error e
  | .ok s => .ok s.highWater

/-! ## Client operations -/

def enqueue (scope : ScopeId) (sequence : Nat) (name : String) (now : Nat) : Answer RequestState :=
  match p.enter scope now with
  | .error e => (.error e, p)
  | .ok p =>
    match p.config.aliases[name]? with
    | none => (.error .unknownGroup, p)
    | some group =>
      let id : RequestId := ⟨scope, sequence⟩
      match p.requests[id]? with
      | some request =>
          (if request.group = group then .ok request.state else .error .conflict, p)
      | none =>
        match p.scope scope with
        | .error e => (.error e, p)
        | .ok identity =>
          if sequence ≤ identity.highWater then (.error .replay, p)
          else if (p.groupAt group).unavailable then (.error .unavailable, p)
          else
            let queued := p.requests.count fun _ r => r.group == group && r.state.isQueued
            let policy := p.policyAt group
            if policy.queueCapacity ≤ queued then (.error .queueFull, p)
            else
              match checkedAdd now policy.queueTimeoutMs with
              | none => (.error .unavailable, p.markUnavailable group)
              | some deadline =>
                  let state := RequestState.queued deadline
                  (.ok state,
                    { p with
                      requests := p.requests.insert id
                        { group := group, state := state, feedback := none,
                          lastReport := none, leaseCleared := false, held := none }
                      scopes := p.scopes.modify scope fun s => { s with highWater := sequence } })

def status (scope : ScopeId) (sequence now : Nat) : Answer RequestState :=
  match p.enter scope now with
  | .error e => (.error e, p)
  | .ok p =>
    match p.request scope sequence with
    | .error e => (.error e, p)
    | .ok r => (.ok r.state, p)

def cancel (scope : ScopeId) (sequence now : Nat) : Answer RequestState :=
  match p.enter scope now with
  | .error e => (.error e, p)
  | .ok p =>
    match p.request scope sequence with
    | .error e => (.error e, p)
    | .ok r =>
      let id : RequestId := ⟨scope, sequence⟩
      let p :=
        match r.state with
        | .queued _ => p.terminal id .cancelled none
        | .active _ _ _ => p.withRequest id Request.requireCancellation
        | .terminal _ => p
      (.ok ((p.requests[id]?).elim r.state (·.state)), p)

/-- Merge receipt-anchored advice without releasing transport occupancy.  Only a
retained duplicate is valid after completion. -/
def reportFeedback (scope : ScopeId) (sequence report : Nat)
    (feedback : ThrottleFeedback) (now : Nat) : Answer Unit :=
  match p.enter scope now with
  | .error e => (.error e, p)
  | .ok p =>
    match p.request scope sequence with
    | .error e => (.error e, p)
    | .ok r =>
      let accept : Answer Unit :=
        if r.state.isActive then
          let maximum := (p.policyAt r.group).maxCooldownMs
          (.ok (), (p.withGroup r.group fun g => g.reported maximum feedback now).withRequest
              ⟨scope, sequence⟩ fun r => { r with lastReport := some (report, feedback) })
        else (.error .conflict, p)
      match r.lastReport with
      | none => accept
      | some (last, fingerprint) =>
          if report < last then (.error .replay, p)
          else if report = last then
            (if feedback = fingerprint then .ok () else .error .conflict, p)
          else accept

def complete (scope : ScopeId) (sequence : Nat) (feedback : Feedback)
    (now : Nat) : Answer RequestState :=
  match p.enter scope now with
  | .error e => (.error e, p)
  | .ok p =>
    match p.request scope sequence with
    | .error e => (.error e, p)
    | .ok r =>
      match r.state with
      | .terminal _ =>
          if r.leaseCleared then (.ok r.state, p)
          else if r.feedback = some feedback then (.ok r.state, p)
          else (.error .conflict, p)
      | .queued _ => (.error .conflict, p)
      | .active _ _ _ =>
          let maximum := (p.policyAt r.group).maxCooldownMs
          let p := p.withGroup r.group fun g =>
            g.completed maximum r.lastReport.isSome feedback now
          (.ok (.terminal .finished), p.terminal ⟨scope, sequence⟩ .finished (some feedback))

/-! ## Occupancy -/

variable (p : AdmissionPolicy)

def activeCount (id : GroupId) : Nat :=
  p.requests.count fun _ r => r.group == id && r.state.isActive

def queuedCount (id : GroupId) : Nat :=
  p.requests.count fun _ r => r.group == id && r.state.isQueued

def classActive (id : GroupId) (workload : WorkloadClass) : Nat :=
  p.requests.count fun rid r =>
    r.group == id && r.state.isActive && decide (p.classAt rid.scope = workload)

def snapshot (id : GroupId) (now : Nat) : Answer GroupSnapshot :=
  match p.tick now with
  | .error e => (.error e, p)
  | .ok p =>
    match p.groups[id]? with
    | none => (.error .unknownGroup, p)
    | some group =>
        (.ok { active := group.orphans.length + p.activeCount id
               queued := p.queuedCount id
               uncertain := group.uncertain.size + group.orphans.length
               cooldownUntil := group.cooldown
               unavailable := group.unavailable
               observedAt := now }, p)

/-! ## Candidates -/

def isWaiting (id : GroupId) (workload : WorkloadClass) (rid : RequestId) (r : Request) : Bool :=
  r.group == id && decide (p.classAt rid.scope = workload) && r.state.isQueued

abbrev Heads : Type := OrdMap ScopeId (OrdMap ScopeId RequestId)

def addHead (heads : Heads) (rid : RequestId) : Heads :=
  heads.alter (p.rootAt rid.scope) fun agents =>
    some ((agents.getD ∅).insertIfNew rid.scope rid)

def heads (id : GroupId) (workload : WorkloadClass) : Heads :=
  (p.requests.keysWith (p.isWaiting id workload)).foldl p.addHead ∅

/-- Round robin over the waiting roots, then over the waiting scopes of the
chosen root, then the first waiting request of the chosen scope. -/
def candidate (id : GroupId) (workload : WorkloadClass) : Option RequestId :=
  let heads := p.heads id workload
  let group := p.groupAt id
  match roundRobin heads.keys (group.lastRoot workload) with
  | none => none
  | some root =>
      let agents := (heads[root]?).getD ∅
      match roundRobin agents.keys (group.lastAgentOf workload root) with
      | none => none
      | some agent => agents[agent]?

/-! ## Selection -/

/-- Attempts occupying shared slots: every background one, and the interactive
ones beyond the reserve, which interactive transports occupy first. -/
def sharedActive (id : GroupId) (active : Nat) : Nat :=
  let backgroundActive := p.classActive id .background
  let interactiveActive := active - backgroundActive
  backgroundActive + (interactiveActive - (p.policyAt id).reserve)

def backgroundCandidate (id : GroupId) (active : Nat) : Option RequestId :=
  let policy := p.policyAt id
  if p.sharedActive id active < policy.capacity - policy.reserve ∧
      p.classActive id .background < policy.capacity - policy.reserve then
    p.candidate id .background
  else none

def select (group : Group) (interactive background : Option RequestId) : Option RequestId :=
  match interactive, background with
  | some i, some b =>
      some (if 3 ≤ group.interactiveStreak ∨ 3 ≤ group.contestedPacingStreak then b else i)
  | i, b => i.or b

def usesShared (id : GroupId) (active : Nat) (workload : WorkloadClass) : Bool :=
  decide (workload = .background) ||
    decide ((p.policyAt id).reserve ≤ active - p.classActive id .background)

def grant (id : GroupId) (active : Nat) (contested : Bool)
    (selected : RequestId) (now nextStart deadline : Nat) : AdmissionPolicy :=
  let workload := p.classAt selected.scope
  let shared := p.usesShared id active workload
  let p := p.withGroup id fun g =>
    g.granted workload (p.rootAt selected.scope) selected.scope nextStart contested shared
  p.withRequest selected fun r => { r with state := .active now deadline false }

def next (id : GroupId) (now : Nat) : Answer (Option RequestId) :=
  match p.snapshot id now with
  | (.error e, p) => (.error e, p)
  | (.ok snapshot, p) =>
    let policy := p.policyAt id
    let group := p.groupAt id
    if group.unavailable then (.error .unavailable, p)
    else if 0 < snapshot.uncertain then (.error .quarantined, p)
    else if policy.capacity ≤ snapshot.active ∨ now < group.nextStart ∨ now < group.cooldown then
      (.ok none, p)
    else
      let interactive := p.candidate id .interactive
      let background := p.backgroundCandidate id snapshot.active
      match select group interactive background with
      | none => (.ok none, p)
      | some selected =>
        match checkedAdd now policy.minIntervalMs, checkedAdd now policy.attemptTimeoutMs with
        | some nextStart, some deadline =>
            (.ok (some selected),
              p.grant id snapshot.active background.isSome selected now nextStart deadline)
        | _, _ => (.error .unavailable, p.markUnavailable id)

def held (p : AdmissionPolicy) (scope : ScopeId) (sequence now : Nat) :
    Answer (Option UncertainHold) :=
  match p.enter scope now with
  | .error e => (.error e, p)
  | .ok p =>
    match p.request scope sequence with
    | .error e => (.error e, p)
    | .ok r =>
        (.ok (r.held.map fun h =>
          { group := r.group, leases := h.1, clearsInMs := h.2 - now }), p)

/-! ## Losing an owner -/

/-- One request of an abandoned scope: queued work is cancelled, active work
becomes uncertain; a lease already uncertain keeps the instant it was lost. -/
def abandonOne (now : Nat) (acc : AbandonReport × AdmissionPolicy)
    (owned : RequestId × Request) : AbandonReport × AdmissionPolicy :=
  match owned.2.state with
  | .queued _ =>
      ({ acc.1 with cancelled := acc.1.cancelled + 1 }, acc.2.terminal owned.1 .cancelled none)
  | .active _ _ _ =>
      let lost := !(acc.2.groupAt owned.2.group).uncertain.contains owned.1
      ({ acc.1 with
         active := acc.1.active + 1
         uncertain := acc.1.uncertain + if lost then 1 else 0 },
        acc.2.withGroup owned.2.group fun g =>
          { g with uncertain := g.uncertain.insertIfNew owned.1 now })
  | .terminal _ => acc

variable (p : AdmissionPolicy)

def abandon (scope : ScopeId) (now : Nat) : Answer AbandonReport :=
  match p.enter scope now with
  | .error e => (.error e, p)
  | .ok p =>
      let owned := p.requests.toList.filter fun e => e.1.scope == scope
      let done := owned.foldl (abandonOne now)
        ({ cancelled := 0, uncertain := 0, active := 0 }, p)
      (.ok done.1, done.2)

def withdraw (scope : ScopeId) (sequence now : Nat) : Answer Unit :=
  match p.enter scope now with
  | .error e => (.error e, p)
  | .ok p =>
    match p.request scope sequence with
    | .error e => (.error e, p)
    | .ok r =>
        if r.state.isActive then (.ok (), p.terminal ⟨scope, sequence⟩ .cancelled none)
        else (.error .conflict, p)

/-! ## The next wake -/

def consider (now : Nat) (wake : Option Nat) (instant : Nat) : Option Nat :=
  if now < instant then some (wake.elim instant fun w => min w instant) else wake

def requestInstant (group : Group) (rid : RequestId) (r : Request) : Option Nat :=
  match r.state with
  | .queued deadline => some deadline
  | .active _ deadline required =>
      match group.uncertain[rid]? with
      | some since => some (leaseRelease deadline since)
      | none => if required then none else some deadline
  | .terminal _ => none

def blocked (id : GroupId) (group : Group) : Bool :=
  group.unavailable || !group.uncertain.isEmpty || !group.orphans.isEmpty
    || decide ((p.policyAt id).capacity ≤ group.orphans.length + p.activeCount id)

def groupInstants (id : GroupId) (group : Group) : List Nat :=
  group.orphans.map (·.releaseAt)
    ++ ((p.requests.toList.filter fun e => e.2.group == id).filterMap fun e =>
        requestInstant group e.1 e.2)
    ++ (if 0 < p.queuedCount id && !p.blocked id group then
          [max group.nextStart group.cooldown]
        else [])

def nextWake (now : Nat) : Answer (Option Nat) :=
  match p.tick now with
  | .error e => (.error e, p)
  | .ok p =>
      let instants := p.groups.toList.flatMap fun e => p.groupInstants e.1 e.2
      (.ok (instants.foldl (consider now) none), p)

/-! ## The durable ledger -/

/-- What an active request is in the ledger.  A restart loses every owner: an
attempt not yet uncertain is lost no earlier than now. -/
def outstandingOf (now : Nat) (rid : RequestId) (r : Request) : Option OutstandingAttempt :=
  match r.state with
  | .active _ deadline _ =>
      let since := (p.groupAt r.group).uncertain[rid]?
      let release := leaseRelease deadline (since.getD now)
      some { group := r.group, scope := rid.scope.serial, sequence := rid.sequence,
             releaseRemainingMs := some (release - now) }
  | _ => none

def orphanOutstanding (now : Nat) (o : Orphan) : OutstandingAttempt :=
  { o.attempt with releaseRemainingMs := some (o.releaseAt - now) }

def ledgerGroup (now : Nat) (g : Group) : LedgerGroup :=
  { cooldownRemainingMs := g.cooldown - now
    pacingRemainingMs := g.nextStart - now
    unavailable := g.unavailable }

def accounts (now : Nat) : AdmissionLedger :=
  { epoch := p.epoch
    outstanding :=
      (p.requests.toList.filterMap fun e => p.outstandingOf now e.1 e.2)
        ++ (p.groups.toList.flatMap fun e => e.2.orphans.map (orphanOutstanding now))
    groups := p.groups.map fun _ g => ledgerGroup now g }

def ledger (now : Nat) : Answer AdmissionLedger :=
  match p.tick now with
  | .error e => (.error e, p)
  | .ok p => (.ok (p.accounts now), p)

/-! ## Restart and reset -/

def restoreGroups (now : Nat) : List (GroupId × LedgerGroup) → OrdMap GroupId Group →
      Except AdmissionError (OrdMap GroupId Group)
  | [], groups => .ok groups
  | (id, durable) :: rest, groups =>
      match groups[id]? with
      | none => .error .unknownGroup
      | some group =>
        match checkedAdd now durable.cooldownRemainingMs with
        | none => .error .unavailable
        | some cooldown =>
          match checkedAdd now durable.pacingRemainingMs with
          | none => .error .unavailable
          | some nextStart =>
              restoreGroups now rest (groups.insert id
                { group with
                  cooldown := cooldown, nextStart := nextStart,
                  unavailable := durable.unavailable })

/-- The orphan an outstanding attempt becomes: downtime only lengthens its
lease, which never exceeds the attempt timeout plus the margin. -/
def orphanOf (policy : GroupPolicy) (now : Nat) (attempt : OutstandingAttempt) : Orphan :=
  let bound := saturatingAdd policy.attemptTimeoutMs uncertainLeaseMarginMs
  let remaining := attempt.releaseRemainingMs.elim bound fun r => min r bound
  { attempt := attempt, releaseAt := saturatingAdd now remaining }

def restoreOutstanding (config : AdmissionConfig) (now : Nat) :
    List OutstandingAttempt → OrdMap GroupId Group → Except AdmissionError (OrdMap GroupId Group)
  | [], groups => .ok groups
  | attempt :: rest, groups =>
      match config.groups[attempt.group]? with
      | none => .error .unknownGroup
      | some policy =>
          restoreOutstanding config now rest (groups.modify attempt.group fun g =>
            { g with orphans := g.orphans ++ [orphanOf policy now attempt] })

def restore (config : AdmissionConfig) (ledger : AdmissionLedger) (now : Nat) :
    Except AdmissionError AdmissionPolicy :=
  match new ledger.epoch config with
  | .error e => .error e
  | .ok policy =>
    match restoreGroups now ledger.groups.toList policy.groups with
    | .error e => .error e
    | .ok groups =>
      match restoreOutstanding config now ledger.outstanding groups with
      | .error e => .error e
      | .ok groups => .ok { policy with now := now, groups := groups }

def relinquish (epoch : Nat) : AdmissionPolicy :=
  { p with
    epoch := epoch
    scopes := ∅
    requests := ∅
    terminals := []
    groups := p.groups.map fun _ g => g.relinquished }

/-- Operator-acknowledged successor epoch: scopes are revoked, uncertainty and
orphans are relinquished, provider-facing deadlines are preserved. -/
def reset (now : Nat) : Answer Nat :=
  match p.tick now with
  | .error e => (.error e, p)
  | .ok p =>
    match checkedAdd p.epoch 1 with
    | none => (.error .scopeLimit, p)
    | some epoch => (.ok epoch, p.relinquish epoch)

variable {p : AdmissionPolicy} {gid : GroupId} {workload : WorkloadClass}

def Waits (p : AdmissionPolicy) (gid : GroupId) (workload : WorkloadClass)
    (id : RequestId) : Prop :=
  ∃ r, p.requests[id]? = some r ∧ p.isWaiting gid workload id r = true

def waitingRoots (p : AdmissionPolicy) (gid : GroupId) (workload : WorkloadClass) : Set ScopeId :=
  {root | ∃ id, p.Waits gid workload id ∧ p.rootAt id.scope = root}

def waitingScopes (p : AdmissionPolicy) (gid : GroupId) (workload : WorkloadClass)
    (root : ScopeId) : Set ScopeId :=
  {scope | p.rootAt scope = root ∧ ∃ id, p.Waits gid workload id ∧ id.scope = scope}

variable {id : RequestId} {root scope : ScopeId}

lemma isWaiting_iff {r : Request} : p.isWaiting gid workload id r = true ↔
      r.group = gid ∧ p.classAt id.scope = workload ∧ r.state.isQueued = true := by
  simp only [isWaiting, Bool.and_eq_true, beq_iff_eq, decide_eq_true_eq, and_assoc]

lemma mem_waiting_iff :
    id ∈ p.requests.keysWith (p.isWaiting gid workload) ↔ p.Waits gid workload id :=
  mem_keysWith

/-! ## The queue heads -/

def agentsUnder (heads : Heads) (root : ScopeId) : OrdMap ScopeId RequestId :=
  (heads[root]?).getD ∅

section

variable (p) (heads : Heads) (id root)

lemma agentsUnder_addHead : agentsUnder (p.addHead heads id) root =
      if p.rootAt id.scope = root then (agentsUnder heads root).insertIfNew id.scope id
      else agentsUnder heads root := by
  unfold agentsUnder addHead
  rw [getElem?_alter]
  simp only [compare_eq_iff_eq]
  by_cases h : p.rootAt id.scope = root
  · rw [if_pos h, if_pos h, h]
    rfl
  · rw [if_neg h, if_neg h]

lemma mem_addHead : root ∈ p.addHead heads id ↔ p.rootAt id.scope = root ∨ root ∈ heads := by
  rw [mem_iff, mem_iff]
  unfold addHead
  rw [getElem?_alter]
  by_cases h : p.rootAt id.scope = root <;> simp [h]

end

section

variable (p) (l : List RequestId) (root)

lemma agentsUnder_foldl (scope : ScopeId) : (agentsUnder (l.foldl p.addHead ∅) root)[scope]? =
      if p.rootAt scope = root then l.find? (fun id => decide (id.scope = scope)) else none := by
  induction l using List.reverseRecOn with
  | nil => simp [agentsUnder]
  | append_singleton l id ih =>
    rw [foldl_append, foldl_cons, foldl_nil, agentsUnder_addHead, List.find?_append]
    by_cases hroot : p.rootAt id.scope = root
    · rw [if_pos hroot, getElem?_insertIfNew_eq, ih]
      by_cases hscope : id.scope = scope
      · subst hscope
        rw [if_pos hroot, if_pos hroot]
        cases l.find? (fun id' => decide (id'.scope = id.scope)) <;> simp
      · simp [hscope]
    · rw [if_neg hroot, ih]
      by_cases hscope : id.scope = scope
      · subst hscope
        rw [if_neg hroot, if_neg hroot]
      · simp [hscope]

lemma mem_foldl_addHead : root ∈ l.foldl p.addHead ∅ ↔ ∃ id ∈ l, p.rootAt id.scope = root := by
  induction l using List.reverseRecOn with
  | nil => simp
  | append_singleton l id ih =>
    rw [foldl_append, foldl_cons, foldl_nil, mem_addHead, ih]
    constructor
    · rintro (h | ⟨id', hid', h⟩)
      · exact ⟨id, by simp, h⟩
      · exact ⟨id', by simp [hid'], h⟩
    rintro ⟨id', hid', h⟩
    rcases mem_append.mp hid' with hid' | hid'
    · exact Or.inr ⟨id', hid', h⟩
    · have : id' = id := by simpa using hid'
      exact Or.inl (this ▸ h)

end

lemma mem_heads_iff : root ∈ p.heads gid workload ↔ root ∈ p.waitingRoots gid workload := by
  unfold heads
  rw [mem_foldl_addHead]
  constructor
  · rintro ⟨id, hid, h⟩
    exact ⟨id, mem_waiting_iff.mp hid, h⟩
  · rintro ⟨id, hid, h⟩
    exact ⟨id, mem_waiting_iff.mpr hid, h⟩

lemma mem_agents_iff : scope ∈ agentsUnder (p.heads gid workload) root ↔
      scope ∈ p.waitingScopes gid workload root := by
  rw [mem_iff]
  unfold heads
  constructor
  · rintro ⟨id, hid⟩
    rw [agentsUnder_foldl] at hid
    split at hid
    · rename_i hroot
      have htest := List.find?_some hid
      exact ⟨hroot, id, mem_waiting_iff.mp (mem_of_find?_eq_some hid), by simpa using htest⟩
    · simp at hid
  · rintro ⟨hroot, id, hid, hscope⟩
    rw [agentsUnder_foldl, if_pos hroot]
    have hsome : ((p.requests.keysWith (p.isWaiting gid workload)).find?
        fun id => decide (id.scope = scope)).isSome := by
      rw [List.find?_isSome]
      exact ⟨id, mem_waiting_iff.mpr hid, by simpa using hscope⟩
    exact Option.isSome_iff_exists.mp hsome

instance (root : ScopeId) : Decidable (root ∈ p.waitingRoots gid workload) :=
  decidable_of_iff _ mem_heads_iff

lemma head_least {id' : RequestId} (h : (agentsUnder (p.heads gid workload) root)[scope]? = some id)
    (h' : p.Waits gid workload id') (hscope : id'.scope = scope) :
    p.Waits gid workload id ∧ id.scope = scope ∧ id.sequence ≤ id'.sequence := by
  unfold heads at h
  rw [agentsUnder_foldl] at h
  split at h
  · have htest := List.find?_some h
    have hid : id.scope = scope := by simpa using htest
    refine ⟨mem_waiting_iff.mp (mem_of_find?_eq_some h), hid, ?_⟩
    have hle : id ≤ id' := find?_le_of_pairwise (keysWith_pairwise_lt _ _) h
      (mem_waiting_iff.mpr h') (by simpa using hscope)
    rcases lt_or_eq_of_le hle with hlt | rfl
    · rcases RequestId.lt_iff.mp hlt with hlt | ⟨_, hlt⟩
      · rw [hid, hscope] at hlt
        exact absurd hlt (lt_irrefl _)
      · exact le_of_lt hlt
    · exact le_refl _
  · simp at h

/-! ## The choice -/

/-- What a chosen candidate is: the next waiting root after the cursor of the
class, the next waiting scope of that root after its own cursor, and that
scope's earliest waiting request. -/
structure Chosen (p : AdmissionPolicy) (gid : GroupId) (workload : WorkloadClass)
    (id : RequestId) : Prop where
  waits : p.Waits gid workload id
  root : IsNext (p.waitingRoots gid workload) ((p.groupAt gid).lastRoot workload)
    (p.rootAt id.scope)
  scope : IsNext (p.waitingScopes gid workload (p.rootAt id.scope))
    ((p.groupAt gid).lastAgentOf workload (p.rootAt id.scope)) id.scope
  first : ∀ id', p.Waits gid workload id' → id'.scope = id.scope → id.sequence ≤ id'.sequence

lemma chosen_of_candidate (h : p.candidate gid workload = some id) : p.Chosen gid workload id := by
  unfold candidate at h
  dsimp only at h
  split at h
  · simp at h
  rename_i root hroot
  split at h
  · simp at h
  rename_i agent hagent
  have hentry : (agentsUnder (p.heads gid workload) root)[agent]? = some id := h
  have hscope := isNext_keys (fun k => mem_agents_iff) hagent
  obtain ⟨hrootEq, w, hw, hwscope⟩ := hscope.1
  obtain ⟨hwaits, hid, _⟩ := head_least hentry hw hwscope
  have hidRoot : p.rootAt id.scope = root := by rw [hid]; exact hrootEq
  refine ⟨hwaits, ?_, ?_, ?_⟩
  · rw [hidRoot]
    exact isNext_keys (fun k => mem_heads_iff) hroot
  · rw [hidRoot, hid]
    exact hscope
  · intro id' hid' hs
    exact (head_least hentry hid' (hs.trans hid)).2.2

lemma candidate_isSome_iff :
    (∃ id, p.candidate gid workload = some id) ↔ ∃ id, p.Waits gid workload id := by
  constructor
  · rintro ⟨id, h⟩
    exact ⟨id, (chosen_of_candidate h).waits⟩
  rintro ⟨id, hid⟩
  have hrootMem : p.rootAt id.scope ∈ p.heads gid workload := mem_heads_iff.mpr ⟨id, hid, rfl⟩
  obtain ⟨root, hroot⟩ := roundRobin_isSome (Std.ExtTreeMap.mem_keys.mpr hrootMem)
    ((p.groupAt gid).lastRoot workload)
  obtain ⟨w, hw, hwroot⟩ := (isNext_keys (fun k => mem_heads_iff) hroot).1
  have hagentMem : w.scope ∈ agentsUnder (p.heads gid workload) root :=
    mem_agents_iff.mpr ⟨hwroot, w, hw, rfl⟩
  obtain ⟨agent, hagent⟩ := roundRobin_isSome (Std.ExtTreeMap.mem_keys.mpr hagentMem)
    ((p.groupAt gid).lastAgentOf workload root)
  have hin : agent ∈ agentsUnder (p.heads gid workload) root :=
    mem_agents_iff.mpr (isNext_keys (fun k => mem_agents_iff) hagent).1
  obtain ⟨head, hhead⟩ := mem_iff.mp hin
  refine ⟨head, ?_⟩
  unfold candidate
  dsimp only
  rw [hroot]
  dsimp only
  rw [show ((p.heads gid workload)[root]?).getD ∅ = agentsUnder (p.heads gid workload) root
    from rfl, hagent]
  exact hhead

end AdmissionPolicy

end Quecto.Admission
