/-
  Authority/Cancellation.lean --- a capability for every scope the policy admits, and which
  owners are told to stop.
-/
import Quecto.Authority.Durability

namespace Quecto.Admission.AdmissionPolicy

open Foundation

/-! ## The scopes a policy admits -/

def Admits (p : AdmissionPolicy) (scope : ScopeId) : Prop := ∃ s, p.scope scope = .ok s

variable {p : AdmissionPolicy} {scope : ScopeId}

lemma admits_iff :
    p.Admits scope ↔ scope.epoch = p.epoch ∧ ∃ s, p.scopes[scope]? = some s ∧
      s.retired = false := by
  unfold Admits
  simp only [scope_ok_iff, exists_and_left]

lemma SameScopes.admits {p' : AdmissionPolicy} (h : SameScopes p p') (scope : ScopeId) :
    p'.Admits scope ↔ p.Admits scope :=
  h.scope_ok_iff scope

lemma scope_error {e : AdmissionError} (h : p.scope scope = .error e) :
    (e = .unknownScope ∨ e = .staleEpoch) ∧ ¬ p.Admits scope := by
  refine ⟨?_, ?_⟩
  · unfold AdmissionPolicy.scope at h
    split at h
    · exact .inr (Except.error.inj h).symm
    split at h
    · split at h
      · exact .inl (Except.error.inj h).symm
      · simp at h
    · exact .inl (Except.error.inj h).symm
  · rintro ⟨s, hs⟩
    rw [h] at hs
    simp at hs

lemma register_cases (p : AdmissionPolicy) (root : Option ScopeId) (workload : WorkloadClass) :
    (∃ e, p.register root workload = (.error e, p)) ∨
      ∃ id p', p.register root workload = (.ok id, p') ∧
        ∀ scope, p'.Admits scope ↔ scope = id ∨ p.Admits scope := by
  unfold register
  dsimp only
  split
  · exact .inl ⟨_, rfl⟩
  split
  · exact .inl ⟨_, rfl⟩
  rename_i serial _
  refine .inr ⟨_, _, rfl, ?_⟩
  intro scope
  simp only [admits_iff, OrdMap.getElem?_insert_eq]
  by_cases hid : (⟨p.epoch, serial⟩ : ScopeId) = scope
  · subst hid
    simp
  · simp [hid, Ne.symm hid]

lemma retire_cases (p : AdmissionPolicy) (scope : ScopeId) :
    (∃ e, (e = .unknownScope ∨ e = .staleEpoch) ∧ ¬ p.Admits scope ∧
        p.retire scope = (.error e, p)) ∨ p.retire scope = (.error .busy, p) ∨
      ∃ p', p.retire scope = (.ok (), p') ∧
        ∀ other, p'.Admits other ↔ other ≠ scope ∧ p.Admits other := by
  unfold retire
  split
  · rename_i e he
    obtain ⟨hkind, hnot⟩ := scope_error he
    exact .inl ⟨e, hkind, hnot, rfl⟩
  split
  · exact .inr (.inl rfl)
  · refine .inr (.inr ⟨_, rfl, ?_⟩)
    intro other
    have hsame : ∀ (l : List RequestId) (q : AdmissionPolicy),
        SameScopes q (l.foldl (fun q id => q.terminal id .cancelled none) q) := by
      intro l
      induction l with
      | nil => exact SameScopes.refl
      | cons id l ih => intro q; exact (SameScopes.terminal q id _ _).trans (ih _)
    rw [← (hsame (p.requests.keysWith fun id r => id.scope == scope && r.state.isQueued)
      p).admits other]
    simp only [admits_iff, OrdMap.getElem?_modify_eq]
    by_cases hother : scope = other
    · simp [hother]
    · simp [hother, Ne.symm hother]

end Quecto.Admission.AdmissionPolicy

namespace Quecto.Authority

open Foundation Admission AdmissionPolicy

variable {S : Type}

namespace AdmissionAuthority

def Licensed (a : AdmissionAuthority S) : Prop :=
  ∀ scope : ScopeId, scope ∈ a.issued ↔ a.service.Admits scope

/-! ## Operations -/

variable {a : AdmissionAuthority S} {p : AdmissionPolicy}

lemma Licensed.follows {a' : AdmissionAuthority S} {allowed : Operation → Prop} (h : a.Licensed)
    (wf : a.service.Wf) (hfollows : Follows allowed a a')
    (hkeeps : ∀ op, allowed op → op.keepsScopes = true) : a'.Licensed := by
  intro scope
  rw [hfollows.issued, (hfollows.evolves.sameScopes hkeeps wf).admits]
  exact h scope

lemma keepsScopes_of_read {now : Nat} {op : Operation} (h : Reads now op) :
    op.keepsScopes = true := by
  cases op <;> simp_all [Reads, Operation.readTime, Operation.keepsScopes]

section

variable (h : a.Licensed)
include h

lemma licensed_issue [AdmissionSecretSource S] {id : ScopeId}
    (hp : ∀ scope, p.Admits scope ↔ scope = id ∨ a.service.Admits scope) (root : ScopeId)
    (parent : Option ScopeId) :
    (({ a with service := p } : AdmissionAuthority S).issue id root parent).2.Licensed := by
  intro scope
  show scope ∈ a.issued.insert id _ ↔ p.Admits scope
  rw [hp, ← h scope, OrdMap.mem_iff, OrdMap.mem_iff, OrdMap.getElem?_insert_eq]
  by_cases hid : id = scope
  · simp [hid]
  · simp [hid, Ne.symm hid]

lemma licensed_registerRoot [AdmissionSecretSource S] (workload : WorkloadClass) :
    (a.registerRoot workload).2.Licensed := by
  unfold registerRoot AdmissionPolicy.registerRoot
  rcases a.service.register_cases none workload with ⟨e, heq⟩ | ⟨id, p, heq, hp⟩
  · rw [heq]
    exact h
  · rw [heq]
    exact licensed_issue h hp _ _

lemma licensed_registerChild [AdmissionSecretSource S] (parent : Credential) :
    (a.registerChild parent).2.Licensed := by
  unfold registerChild guarded AdmissionPolicy.registerChild
  split
  · exact h
  cases a.service.scope parent.scope with
  | error e => exact h
  | ok s =>
    rcases a.service.register_cases (some s.root) .background with ⟨e, heq⟩ | ⟨id, p, heq, hp⟩
    · dsimp only
      rw [heq]
      exact h
    dsimp only
    rw [heq]
    exact licensed_issue h hp _ _

lemma licensed_erase {scope : ScopeId}
    (hp : ∀ other, p.Admits other ↔ other ≠ scope ∧ a.service.Admits other) (other : ScopeId) :
    other ∈ a.issued.erase scope ↔ p.Admits other := by
  rw [hp, ← h other, OrdMap.mem_iff, OrdMap.mem_iff, OrdMap.getElem?_erase_eq]
  by_cases hother : scope = other
  · simp [hother]
  · simp [hother, Ne.symm hother]

lemma licensed_release (scope : ScopeId) : (a.release scope).2.Licensed := by
  unfold release
  rcases a.service.retire_cases scope with ⟨e, _, _, heq⟩ | heq | ⟨p, heq, hp⟩
  · rw [heq]
    exact h
  · rw [heq]
    exact h
  rw [heq]
  intro other
  exact licensed_erase h hp other

lemma licensed_retire (credential : Credential) : (a.retire credential).2.Licensed := by
  unfold retire guarded
  split
  · exact h
  · exact licensed_release h credential.scope

lemma licensed_retireChild (parent : Credential) (child : ScopeId) :
    (a.retireChild parent child).2.Licensed := by
  unfold retireChild guarded
  split
  · exact h
  split
  · exact licensed_release h child
  · exact h

end

lemma licensed_releaseDetached {acc : Nat × AdmissionAuthority S} (h : acc.2.Licensed)
    (scope : ScopeId) : (releaseDetached acc scope).2.Licensed := by
  unfold releaseDetached
  dsimp only
  have hunknown : ¬ acc.2.service.Admits scope → ∀ other, acc.2.service.Admits other ↔
      other ≠ scope ∧ acc.2.service.Admits other := by
    intro hnot other
    constructor
    · intro hother
      refine ⟨?_, hother⟩
      rintro rfl
      exact hnot hother
    · exact And.right
  rcases acc.2.service.retire_cases scope with ⟨e, rfl | rfl, hnot, heq⟩ | heq | ⟨p, heq, hp⟩
  · rw [heq]
    intro other
    exact licensed_erase h (hunknown hnot) other
  · rw [heq]
    intro other
    exact licensed_erase h (hunknown hnot) other
  · rw [heq]
    exact h
  rw [heq]
  intro other
  exact licensed_erase h hp other

lemma licensed_releaseIdleDetached (h : a.Licensed) : a.releaseIdleDetached.2.Licensed := by
  have hfold : ∀ (scopes : List ScopeId) (acc : Nat × AdmissionAuthority S), acc.2.Licensed →
      (scopes.foldl releaseDetached acc).2.Licensed := by
    intro scopes
    induction scopes with
    | nil => intro acc hacc; exact hacc
    | cons scope scopes ih => intro acc hacc; exact ih _ (licensed_releaseDetached hacc scope)
  exact hfold a.detached.keys (0, { a with detached := ∅ }) h

end AdmissionAuthority

/-! ## Turns -/

open AdmissionAuthority

namespace Broker

variable {now : Nat} {b : Broker S}

lemma keepsScopes_of_dispatches {op : Operation} (h : Dispatches now op) :
    op.keepsScopes = true := by
  rcases h with ⟨group, rfl⟩ | ⟨scope, sequence, rfl⟩ | hread
  · rfl
  · rfl
  · exact keepsScopes_of_read hread

lemma licensed_disconnect (wf : b.authority.service.Wf) (h : b.authority.Licensed)
    (scope : ScopeId) (now : Nat) : (b.disconnect scope now).2.authority.Licensed := by
  have hleft : (b.authority.disconnect scope now).2.Licensed := by
    refine h.follows wf (b.authority.acts_disconnect scope now).follows ?_
    rintro op rfl
    rfl
  exact disconnect_leaves (P := fun b' => b'.authority.Licensed) hleft
    (licensed_release hleft scope)

lemma licensed_advance (wf : b.authority.service.Wf) (h : b.authority.Licensed) (now : Nat) :
    (b.advance now).2.authority.Licensed := by
  rcases advance_cases wf now with
    ⟨e, q, hq, heq⟩ | ⟨q, journal, htick, ⟨_, heq⟩ | ⟨_, heq⟩⟩
  · rw [heq]
    intro scope
    have hsame : SameScopes b.authority.service q := by
      rcases hq with rfl | htick
      · exact .refl _
      · exact .tick wf htick
    rw [hsame.admits scope]
    exact h scope
  · rw [heq]
    intro scope
    rw [(SameScopes.tick wf htick).admits scope]
    exact h scope
  · rw [heq]
    intro scope
    rw [admits_iff]
    simp [relinquish]

lemma licensed_turn [AdmissionSecretSource S] (turn : Turn) (wf : b.authority.service.Wf)
    (h : b.authority.Licensed) : (b.turn turn).2.authority.Licensed := by
  cases turn with
  | registerRoot workload => exact licensed_registerRoot h workload
  | registerChild parent => exact licensed_registerChild h parent
  | retire credential => exact licensed_retire h credential
  | retireChild parent child => exact licensed_retireChild h parent child
  | acquire credential sequence name now =>
    refine h.follows wf (acts_acquire b.authority credential sequence now name).follows ?_
    rintro op rfl
    rfl
  | cancel credential sequence now =>
    refine h.follows wf (acts_cancel b.authority credential sequence now).follows ?_
    rintro op rfl
    rfl
  | feedback credential sequence report feedback now =>
    refine h.follows wf (acts_feedback b.authority credential sequence now report
      feedback).follows ?_
    rintro op rfl
    rfl
  | status credential sequence now =>
    exact h.follows wf (acts_status b.authority credential sequence now).follows
      fun _ => keepsScopes_of_read
  | observe request now =>
    exact h.follows wf (acts_observe b.authority now request).follows fun _ => keepsScopes_of_read
  | inspect now =>
    exact h.follows wf (acts_inspect b.authority now).follows fun _ => keepsScopes_of_read
  | bind credential supersedes now =>
    obtain ⟨hidles, hissued⟩ := b.idles_bind credential supersedes now
    refine h.follows wf ⟨hidles.moves.evolves, hissued⟩ ?_
    rintro op rfl
    rfl
  | disconnect scope now => exact licensed_disconnect wf h scope now
  | dispatch now => exact h.follows wf (b.serves_dispatch now) fun _ => keepsScopes_of_dispatches
  | checkpoint now =>
    exact h.follows wf (b.serves_persistCurrent now) fun _ => keepsScopes_of_read
  | settle waiting now =>
    have hdispatched := b.serves_dispatch now
    have hreleased := licensed_releaseIdleDetached
      (h.follows wf hdispatched fun _ => keepsScopes_of_dispatches)
    have hwf := (moves_releaseIdleDetached _).evolves.wf (hdispatched.evolves.wf wf)
    have hreads := acts_report (b.dispatch now).2.authority (dispatchFailure (b.dispatch now).1)
      waiting now
    exact hreleased.follows hwf hreads.follows fun _ => keepsScopes_of_read
  | complete credential sequence feedback now =>
    refine h.follows wf (b.serves_complete credential sequence feedback now) ?_
    rintro op (rfl | hread)
    · rfl
    · exact keepsScopes_of_read hread
  | advance now => exact licensed_advance wf h now

lemma licensed_start {journal journal' : Journal} {start : AuthorityStart} {secrets : S}
    {a : AdmissionAuthority S}
    (h : restoreAuthority journal start secrets now = (.ok a, journal')) :
    a.Licensed := by
  obtain ⟨a₀, hstarting, hpersist⟩ := restoreAuthority_ok h
  have hinitial := initial_of_starting hstarting
  have hlicensed : a₀.Licensed := by
    obtain ⟨service, rfl, hservice⟩ := startingAuthority_cases hstarting
    have hscopes : service.scopes = ∅ := by
      rcases hservice with hnew | ⟨ledger, _, hrestore⟩
      · exact (fresh_of_new hnew).scopes
      · exact (restored_of_restore hrestore).scopes
    intro scope
    rw [admits_iff]
    simp [compose, hscopes]
  have hwritten := (Broker.mk a₀ journal).serves_persistCurrent now
  rw [hpersist] at hwritten
  exact hlicensed.follows hinitial.wf hwritten fun _ => keepsScopes_of_read

end Broker

lemma System.Reachable.licensed [AdmissionSecretSource S] {s : System S} (h : s.Reachable)
    {a : AdmissionAuthority S} (ha : s.authority = some a) : a.Licensed := by
  have hboth : a.service.Wf ∧ a.Licensed := by
    refine System.reachable_induction
      (I := fun b => b.authority.service.Wf ∧ b.authority.Licensed) ?_ ?_ h ha
    · intro journal start secrets now a journal' hrestore
      exact ⟨(Broker.durable_start hrestore).1.reachable.wf, Broker.licensed_start hrestore⟩
    · intro b turn hb
      exact ⟨(b.turn_refines turn).wf hb.1, Broker.licensed_turn turn hb.1 hb.2⟩
  exact hboth.2

/-- Through every interleaving of clients' turns and restarts, exactly the scopes the policy
admits can act, each under one token; a scope that is retired, released, of an earlier epoch or
was never registered has none. -/
theorem one_token_per_scope [AdmissionSecretSource S] {s : System S} (reached : s.Reachable)
    {a : AdmissionAuthority S} (runs : s.authority = some a) (scope : ScopeId) :
    (a.service.Admits scope ↔
      ∃ token, ∀ other, a.authenticate ⟨scope, other⟩ = .ok () ↔ other = token) ∧
    (¬ a.service.Admits scope → ∀ other, a.authenticate ⟨scope, other⟩ ≠ .ok ()) := by
  rw [← reached.licensed runs scope, OrdMap.mem_iff]
  simp only [ne_eq, authenticate_ok_iff]
  refine ⟨⟨?_, ?_⟩, ?_⟩
  · rintro ⟨issued, hissued⟩
    exact ⟨issued.token, fun other => by simp [hissued, eq_comm]⟩
  · rintro ⟨token, htoken⟩
    obtain ⟨issued, hissued, _⟩ := (htoken token).mpr rfl
    exact ⟨issued, hissued⟩
  · rintro hnone other ⟨issued, hissued, _⟩
    exact hnone ⟨issued, hissued⟩

/-- The registered scope has its token; once it is retired, none works. -/
theorem one_token_per_scope_sample : (∃ token, ∀ other,
      sampleAuthority.authenticate ⟨sampleScope, other⟩ = .ok () ↔ other = token) ∧
    ∃ a, (exec System.step sampleSystem
        [.turn (.retire ⟨sampleScope, "secret-0"⟩)]).authority = some a ∧
      ∀ other, a.authenticate ⟨sampleScope, other⟩ ≠ .ok () := by
  refine ⟨(one_token_per_scope sampleSystem_reachable sampleSystem_runs sampleScope).1.mp
    ⟨_, okValue_spec _ (by decide +kernel)⟩, _, (Option.some_get (by decide +kernel)).symm, ?_⟩
  refine (one_token_per_scope (sampleSystem_reachable.exec _) (Option.some_get _).symm
    sampleScope).2 ?_
  rw [admits_iff]
  decide +kernel

def requestIn (epoch : Nat) (name : AttemptName) : RequestId :=
  ⟨⟨epoch, name.scope⟩, name.sequence⟩

def MustStop (p : AdmissionPolicy) (id : RequestId) : Prop :=
  ∃ r, p.requests[id]? = some r ∧ mustStop r.state = true

def stops (p : AdmissionPolicy) (id : RequestId) : Bool :=
  (p.requests[id]?).any fun r => mustStop r.state

variable {p : AdmissionPolicy} {id : RequestId} {a : AdmissionAuthority S} {now : Nat}

lemma stops_iff : stops p id = true ↔ MustStop p id := by
  unfold stops MustStop
  rw [Option.any_eq_true]

lemma isActive_of_mustStop {state : RequestState} (h : mustStop state = true) :
    state.isActive = true := by
  cases state <;> simp_all [mustStop, RequestState.isActive]

/-! ## The walk -/

lemma observe_settled (h : a.service.Settled now) (id : RequestId) : a.observe id now =
      (((a.service.request id.scope id.sequence).map Request.state).mapError .admission, a) := by
  unfold AdmissionAuthority.observe AdmissionAuthority.lift AdmissionPolicy.status
  cases hscope : a.service.scope id.scope with
  | error e =>
    unfold enter request
    rw [hscope]
    rfl
  | ok s =>
    rw [h.enter hscope]
    dsimp only
    cases a.service.request id.scope id.sequence <;> rfl

section

variable {a : AdmissionAuthority S} {now : Nat} (epoch : Nat)

lemma dueAmong_cons (h : a.service.Settled now) (o : OutstandingAttempt)
    (attempts : List OutstandingAttempt) : dueAmong epoch now (o :: attempts) a =
      if a.issued.contains (requestIn epoch o.name).scope then
        match a.service.request (requestIn epoch o.name).scope
            (requestIn epoch o.name).sequence with
        | .error e => (.error (.admission e), a)
        | .ok r =>
          ((dueAmong epoch now attempts a).1.map fun ids =>
              if mustStop r.state then requestIn epoch o.name :: ids else ids,
            (dueAmong epoch now attempts a).2)
      else dueAmong epoch now attempts a := by
  have hobserve := observe_settled h (requestIn epoch o.name)
  change (if a.issued.contains (requestIn epoch o.name).scope = true then
    andThen (a.observe (requestIn epoch o.name) now) _ else _) = _
  rw [hobserve]
  split
  · cases a.service.request (requestIn epoch o.name).scope (requestIn epoch o.name).sequence with
    | error e | ok r => rfl
  · rfl

def Answered (a : AdmissionAuthority S) (id : RequestId) : Prop :=
  a.issued.contains id.scope = true → ∃ r, a.service.request id.scope id.sequence = .ok r

def dueOf (a : AdmissionAuthority S) (ids : List RequestId) : List RequestId :=
  ids.filter fun id => a.issued.contains id.scope && stops a.service id

variable (h : a.service.Settled now) (attempts : List OutstandingAttempt)
include h

lemma dueAmong_ok (answered : ∀ o ∈ attempts, Answered a (requestIn epoch o.name)) :
    dueAmong epoch now attempts a =
      (.ok (dueOf a (attempts.map fun o => requestIn epoch o.name)), a) := by
  induction attempts with
  | nil => rfl
  | cons o attempts ih =>
    have hrest := ih fun o' ho' => answered o' (List.mem_cons_of_mem _ ho')
    rw [dueAmong_cons epoch h, hrest, List.map_cons]
    unfold dueOf
    rw [List.filter_cons]
    split
    · rename_i hissued
      obtain ⟨r, hr⟩ := answered o List.mem_cons_self hissued
      have hstops : stops a.service (requestIn epoch o.name) = mustStop r.state := by
        unfold stops
        rw [request_ok hr]
        rfl
      rw [hr, hstops, hissued]
      rfl
    · rename_i hissued
      rw [Bool.eq_false_iff.mpr hissued]
      rfl

lemma dueAmong_error (unanswered : ∃ o ∈ attempts, ¬ Answered a (requestIn epoch o.name)) :
    ∃ e, (dueAmong epoch now attempts a).1 = .error e := by
  induction attempts with
  | nil => simp at unanswered
  | cons o attempts ih =>
    rw [dueAmong_cons epoch h]
    by_cases hhead : Answered a (requestIn epoch o.name)
    · obtain ⟨e, he⟩ := ih (by
        obtain ⟨o', ho', hnot⟩ := unanswered
        rcases List.mem_cons.mp ho' with rfl | ho'
        · exact absurd hhead hnot
        · exact ⟨o', ho', hnot⟩)
      split
      · rename_i hissued
        obtain ⟨r, hr⟩ := hhead hissued
        rw [hr]
        refine ⟨e, ?_⟩
        rw [he]
        rfl
      · exact ⟨e, he⟩
    · obtain ⟨hissued, hunknown⟩ := Classical.not_imp.mp hhead
      rw [if_pos hissued]
      cases hr : a.service.request (requestIn epoch o.name).scope
          (requestIn epoch o.name).sequence with
      | error e => exact ⟨.admission e, rfl⟩
      | ok r => exact absurd ⟨r, hr⟩ hunknown

end

/-! ## The attempts of the ledger -/

lemma map_activeAttempts (wf : p.Wf) : p.activeAttempts.map (requestIn p.epoch) =
      p.requests.keysWith fun _ r => r.state.isActive := by
  have hentries : ∀ l : List (RequestId × Request), (∀ e ∈ l, p.requests[e.1]? = some e.2) →
      (l.flatMap fun e => Request.attempt e.1 e.2).map (requestIn p.epoch) =
        (l.filter fun e => e.2.state.isActive).map (·.1) := by
    intro l
    induction l with
    | nil => intro _; rfl
    | cons e l ih =>
      intro hl
      have hrest := ih fun e' he' => hl e' (List.mem_cons_of_mem _ he')
      rw [List.flatMap_cons, List.map_append, hrest, List.filter_cons]
      unfold Request.attempt
      split
      · -- a request on record belongs to the current epoch
        obtain ⟨s, hs, _⟩ := wf.owner e.1 e.2 (hl e List.mem_cons_self)
        have hname : requestIn p.epoch (e.1.attemptIn e.2.group) = e.1 := by
          unfold requestIn RequestId.attemptIn
          rw [← (wf.scopes _ _ hs).1]
        rw [List.map_singleton, hname]
        rfl
      · rfl
  exact hentries p.requests.toList fun e he => OrdMap.mem_toList_iff.mp he

def orphanNames (p : AdmissionPolicy) : List RequestId :=
  p.orphanedAttempts.map (requestIn p.epoch)

lemma mem_orphanNames_advance (wf : p.Wf) (later : p.now ≤ now) :
    id ∈ orphanNames (p.advance now) ↔ ∃ (gid : GroupId) (g : Group) (o : Orphan),
      p.groups[gid]? = some g ∧ o ∈ g.orphans ∧ now < o.releaseAt ∧
        id = requestIn p.epoch o.attempt.name := by
  have hobserved := observed_tick wf (tick_ok_iff.mpr ⟨later, rfl⟩)
  unfold orphanNames orphanedAttempts
  rw [List.mem_map]
  constructor
  · rintro ⟨name, hname, rfl⟩
    obtain ⟨gid, g', hg', hname⟩ := OrdMap.mem_collect.mp hname
    obtain ⟨o, ho, rfl⟩ := List.mem_map.mp hname
    rw [hobserved.groups] at hg'
    obtain ⟨g, hg, rfl⟩ := Option.map_eq_some_iff.mp hg'
    obtain ⟨ho, hrelease⟩ := List.mem_filter.mp ho
    exact ⟨gid, g, o, hg, ho, of_decide_eq_true hrelease, by rw [hobserved.epoch]⟩
  · rintro ⟨gid, g, o, hg, ho, hrelease, rfl⟩
    refine ⟨o.attempt.name, OrdMap.mem_collect.mpr ⟨gid, p.observedGroup now g, ?_, ?_⟩, ?_⟩
    · rw [hobserved.groups, hg]
      rfl
    · apply List.mem_map_of_mem
      exact List.mem_filter.mpr ⟨ho, decide_eq_true hrelease⟩
    · rw [hobserved.epoch]

section

variable {a : AdmissionAuthority S}

lemma dueOf_active (wf : a.service.Wf) (h : a.Licensed) :
    (∀ id ∈ a.service.requests.keysWith fun _ r => r.state.isActive, Answered a id) ∧
      (dueOf a (a.service.requests.keysWith fun _ r => r.state.isActive)).Nodup ∧
      ∀ id, id ∈ dueOf a (a.service.requests.keysWith fun _ r => r.state.isActive) ↔
        MustStop a.service id := by
  have hadmits : ∀ (id : RequestId) (r : Request), a.service.requests[id]? = some r →
      r.state.isActive = true → ∃ s, a.service.scope id.scope = .ok s := by
    intro id r hr hactive
    obtain ⟨s, hs, _⟩ := wf.scope_of_live hr (RequestState.not_isTerminal_of_isActive hactive)
    exact ⟨s, hs⟩
  refine ⟨?_, ?_, ?_⟩
  · intro id hid _
    obtain ⟨r, hr, hactive⟩ := OrdMap.mem_keysWith.mp hid
    obtain ⟨s, hs⟩ := hadmits id r hr hactive
    exact ⟨r, request_of_scope hs hr⟩
  · exact (OrdMap.nodup_keysWith _ _).filter _
  intro id
  unfold dueOf
  rw [List.mem_filter, OrdMap.mem_keysWith, Bool.and_eq_true, stops_iff]
  constructor
  · rintro ⟨_, _, hstop⟩
    exact hstop
  rintro ⟨r, hr, hstop⟩
  have hactive := isActive_of_mustStop hstop
  have hissued : id.scope ∈ a.issued := (h id.scope).mpr (hadmits id r hr hactive)
  exact ⟨⟨r, hr, hactive⟩, Std.ExtTreeMap.contains_iff_mem.mpr hissued, r, hr, hstop⟩

lemma dueOf_orphans (h : a.Licensed) (ids : List RequestId) :
    ((∀ id ∈ ids, Answered a id) ∧ dueOf a ids = []) ↔ ∀ id ∈ ids, id.scope ∈ a.issued →
        ∃ r, a.service.requests[id]? = some r ∧ mustStop r.state = false := by
  unfold dueOf
  rw [List.filter_eq_nil_iff]
  constructor
  · rintro ⟨hanswered, hnone⟩ id hid hissued
    have hcontains := Std.ExtTreeMap.contains_iff_mem.mpr hissued
    obtain ⟨r, hr⟩ := hanswered id hid hcontains
    refine ⟨r, request_ok hr, ?_⟩
    cases hstop : mustStop r.state with
    | false => rfl
    | true =>
      have hstops := stops_iff.mpr ⟨r, request_ok hr, hstop⟩
      exact absurd (by rw [hcontains, hstops]; rfl) (hnone id hid)
  · intro hall
    refine ⟨?_, ?_⟩
    · intro id hid hcontains
      have hissued := Std.ExtTreeMap.contains_iff_mem.mp hcontains
      obtain ⟨r, hr, _⟩ := hall id hid hissued
      obtain ⟨s, hs⟩ := (h id.scope).mp hissued
      exact ⟨r, request_of_scope hs hr⟩
    · intro id hid hboth
      obtain ⟨hcontains, hstops⟩ := Bool.and_eq_true_iff.mp hboth
      obtain ⟨r, hr, hstop⟩ := hall id hid (Std.ExtTreeMap.contains_iff_mem.mp hcontains)
      obtain ⟨r', hr', hstop'⟩ := stops_iff.mp hstops
      rw [hr] at hr'
      rw [← Option.some.inj hr', hstop] at hstop'
      simp at hstop'

end

/-! ## When the answer is exact -/

def CancelsExactly (a : AdmissionAuthority S) (now : Nat) : Prop :=
  ∃ due a', a.cancellationDue now = (.ok due, a') ∧ due.Nodup ∧
    ∀ id, id ∈ due ↔ MustStop (a.service.advance now) id

lemma cancellationDue_eq (later : a.service.now ≤ now) : a.cancellationDue now =
      dueAmong (a.service.advance now).epoch now
        ((a.service.advance now).accounts now).outstanding
        { a with service := a.service.advance now } := by
  unfold AdmissionAuthority.cancellationDue AdmissionAuthority.ledger AdmissionPolicy.ledger
  rw [tick_ok_iff.mpr ⟨later, rfl⟩]
  rfl

lemma outstanding_requests (wf : p.Wf) (now : Nat) :
    ((p.accounts now).outstanding.map fun o => requestIn p.epoch o.name) =
      (p.requests.keysWith fun _ r => r.state.isActive) ++ orphanNames p := by
  have hnames : ((p.accounts now).outstanding.map fun o => requestIn p.epoch o.name) =
      (p.accounts now).attempts.map (requestIn p.epoch) := by
    rw [AdmissionLedger.attempts, List.map_map]
    rfl
  rw [hnames, accounts_attempts, attempts, List.map_append, map_activeAttempts wf]
  rfl

lemma cancelsExactly_iff (wf : a.service.Wf) (h : a.Licensed) (later : a.service.now ≤ now) :
    CancelsExactly a now ↔ ∀ id ∈ orphanNames (a.service.advance now), id.scope ∈ a.issued →
      ∃ r, (a.service.advance now).requests[id]? = some r ∧ mustStop r.state = false := by
  have htick : a.service.tick now = .ok (a.service.advance now) := tick_ok_iff.mpr ⟨later, rfl⟩
  have hsettled := settled_of_tick wf htick
  have wfq := (wf_of_tick wf htick).1
  let c : AdmissionAuthority S := { a with service := a.service.advance now }
  have hc : c.Licensed := by
    intro scope
    rw [(SameScopes.tick wf htick).admits scope]
    exact h scope
  obtain ⟨hanswered, hnodup, hmem⟩ := dueOf_active wfq hc
  have hnames := outstanding_requests wfq now
  have hall : (∀ o ∈ ((a.service.advance now).accounts now).outstanding,
      Answered c (requestIn (a.service.advance now).epoch o.name)) ↔
        ∀ id ∈ orphanNames (a.service.advance now), Answered c id := by
    rw [← List.forall_mem_map (f := fun o : OutstandingAttempt =>
      requestIn (a.service.advance now).epoch o.name), hnames, List.forall_mem_append]
    exact and_iff_right hanswered
  have hsplit : ∀ ids, dueOf c ((c.service.requests.keysWith fun _ r => r.state.isActive) ++ ids) =
      dueOf c (c.service.requests.keysWith fun _ r => r.state.isActive) ++ dueOf c ids :=
    fun _ => List.filter_append _ _
  unfold CancelsExactly
  rw [cancellationDue_eq later, ← dueOf_orphans hc]
  constructor
  · rintro ⟨due, a', heq, hdue, hexact⟩
    by_cases horphans : ∀ id ∈ orphanNames (a.service.advance now), Answered c id
    · refine ⟨horphans, ?_⟩
      have hok := dueAmong_ok _ hsettled _ (hall.mpr horphans)
      rw [heq, hnames, hsplit] at hok
      obtain rfl := Except.ok.inj (Prod.mk.inj hok).1
      -- whatever an orphan adds must stop, and so is there already
      apply List.eq_nil_iff_forall_not_mem.mpr
      intro id hid
      have hstop := (hexact id).mp (List.mem_append_right _ hid)
      exact (List.nodup_append.mp hdue).2.2 id ((hmem id).mpr hstop) id hid rfl
    · rw [← hall] at horphans
      obtain ⟨e, he⟩ := dueAmong_error _ hsettled _ (by simpa using horphans)
      rw [heq] at he
      simp at he
  · rintro ⟨horphans, hnone⟩
    have hok := dueAmong_ok _ hsettled _ (hall.mpr horphans)
    rw [hnames, hsplit, hnone, List.append_nil] at hok
    exact ⟨_, _, hok, hnodup, hmem⟩

/-- `cancellation_due` is exact if and only if every orphan that still holds, and
whose name belongs to a scope issued since the restart, names a request that is on
record and need not stop. -/
theorem cancellations_exact_iff [AdmissionSecretSource S] {s : System S} (reached : s.Reachable)
    {a : AdmissionAuthority S} (runs : s.authority = some a) {now : Nat}
    (later : a.service.now ≤ now) :
    CancelsExactly a now ↔ ∀ (gid : GroupId) (g : Group), a.service.groups[gid]? = some g →
        ∀ o ∈ g.orphans, now < o.releaseAt →
          (requestIn a.service.epoch o.attempt.name).scope ∈ a.issued →
          ∃ r, (a.service.advance now).requests[requestIn a.service.epoch o.attempt.name]? =
            some r ∧ mustStop r.state = false := by
  have wf := (reached.durable runs).reachable.wf
  rw [cancelsExactly_iff wf (reached.licensed runs) later]
  constructor
  · intro hall gid g hg o ho hrelease hissued
    have hid := (mem_orphanNames_advance wf later).mpr ⟨gid, g, o, hg, ho, hrelease, rfl⟩
    exact hall _ hid hissued
  intro hall id hid hissued
  obtain ⟨gid, g, o, hg, ho, hrelease, rfl⟩ := (mem_orphanNames_advance wf later).mp hid
  exact hall gid g hg o ho hrelease hissued

def twinConfig : AdmissionConfig :=
  { sampleConfig with
    groups := sampleConfig.groups.insert ⟨"second"⟩ sampleGroupPolicy
    aliases := sampleConfig.aliases.insert "other" ⟨"second"⟩ }

def restartedSystem : System SampleSecrets :=
  exec System.step (System.stopped sampleJournal)
    [.start ⟨twinConfig, false, false⟩ ⟨0⟩ 1, .turn (.registerRoot .interactive),
      .turn (.acquire ⟨sampleScope, "secret-0"⟩ 1 "model" 5), .turn (.dispatch 6),
      .start ⟨twinConfig, true, false⟩ ⟨7⟩ 10]

def restartedAuthority : AdmissionAuthority SampleSecrets :=
  restartedSystem.authority.get (by decide +kernel)

lemma restartedSystem_reachable : restartedSystem.Reachable := ⟨sampleJournal, _, rfl⟩

/-- Before anyone registers, an orphan hides nothing. -/
theorem cancellations_exact_restarted :
    restartedAuthority.service.orphanedAttempts = [⟨sampleGroup, 1, 1⟩] ∧
      CancelsExactly restartedAuthority 11 := by
  refine ⟨by decide +kernel, ?_⟩
  have hnone : restartedAuthority.issued.isEmpty = true := by decide +kernel
  refine (cancellations_exact_iff (a := restartedAuthority) restartedSystem_reachable
    (Option.some_get _).symm (by decide +kernel)).mpr ?_
  intro gid g _ o _ _ hissued
  rw [Std.ExtTreeMap.isEmpty_iff.mp hnone] at hissued
  simp at hissued

/-- The first scope registered after the restart has the serial of the scope that
was lost.  Its second request is granted in the other group and cancelled. -/
def collidedSystem : System SampleSecrets :=
  exec System.step restartedSystem
    [.turn (.registerRoot .interactive), .turn (.acquire ⟨sampleScope, "secret-7"⟩ 2 "other" 11),
      .turn (.dispatch 12), .turn (.cancel ⟨sampleScope, "secret-7"⟩ 2 13)]

def collidedAuthority : AdmissionAuthority SampleSecrets :=
  collidedSystem.authority.get (by decide +kernel)

/-- The orphan's name then belongs to a request the new scope never made: asking
for it fails, the whole answer is an error, and a settling turn tells no owner to
stop. -/
theorem orphan_blocks_cancellation :
    collidedSystem.Reachable ∧ collidedSystem.authority = some collidedAuthority ∧
      collidedAuthority.service.now ≤ 14 ∧
      MustStop (collidedAuthority.service.advance 14) ⟨sampleScope, 2⟩ ∧
      (collidedAuthority.cancellationDue 14).1 = .error (.admission .replay) ∧
      ¬ CancelsExactly collidedAuthority 14 ∧
      (Broker.settle ⟨collidedAuthority, collidedSystem.journal⟩ [] 14).1.cancellationDue = [] := by
  have hfails : (collidedAuthority.cancellationDue 14).1 = .error (.admission .replay) := by
    decide +kernel
  refine ⟨restartedSystem_reachable.exec _, (Option.some_get _).symm,
    by decide +kernel, stops_iff.mp (by decide +kernel), hfails, ?_, by decide +kernel⟩
  rintro ⟨due, a', heq, _⟩
  rw [heq] at hfails
  simp at hfails

end Quecto.Authority
