import Mathlib.Logic.Relation
import Mathlib.Order.Lattice
import AutomataCi.TrustSnapshots

/-!
# Trust is reduced

Decisions are ordered dimension by dimension.  A decision should be at most
what each class gets that the evidence names: a fork, an automation among its
actors, a merge queue, the source of its upstream.  It is exactly where no full
authority is given in spite of a fork or of an automation, and where a fork
with write permissions is not an automation as well.  Along chains of upstream
evidence the authority never grows.
-/

namespace AutomataCi

def TrustPermissionAuthority.rank : TrustPermissionAuthority → Nat
  | .denyAll => 0
  | .readOnly => 1
  | .requested => 2

def TrustSecretAuthority.rank : TrustSecretAuthority → Nat
  | .denied => 0
  | .eligible => 1

def TrustCacheAuthority.rank : TrustCacheAuthority → Nat
  | .denied => 0
  | .readOnly => 1
  | .readWrite => 2

def TrustEnvironmentAuthority.rank : TrustEnvironmentAuthority → Nat
  | .denied => 0
  | .eligible => 1

def TrustOidcAuthority.rank : TrustOidcAuthority → Nat
  | .denied => 0
  | .eligible => 1

def TrustOutputAuthority.rank : TrustOutputAuthority → Nat
  | .untrusted => 0
  | .standard => 1

def TrustResultsAuthority.rank : TrustResultsAuthority → Nat
  | .denied => 0
  | .untrusted => 1
  | .standard => 2

namespace TrustAuthorityDecision

def ranks (decision : TrustAuthorityDecision) : Nat × Nat × Nat × Nat × Nat × Nat × Nat :=
  (decision.permissions.rank, decision.secrets.rank, decision.cache.rank,
    decision.environment.rank, decision.oidc.rank, decision.outputs.rank,
    decision.results.rank)

theorem ranks_injective : Function.Injective ranks := by
  rintro ⟨p, s, c, e, o, u, r⟩ ⟨p', s', c', e', o', u', r'⟩ hranks
  simp only [ranks, Prod.mk.injEq] at hranks
  obtain ⟨hp, hs, hc, he, ho, hu, hr⟩ := hranks
  have hpermissions : p = p' := by cases p <;> cases p' <;> first | rfl | cases hp
  have hsecrets : s = s' := by cases s <;> cases s' <;> first | rfl | cases hs
  have hcache : c = c' := by cases c <;> cases c' <;> first | rfl | cases hc
  have henvironment : e = e' := by
    cases e <;> cases e' <;> first | rfl | cases he
  have hoidc : o = o' := by cases o <;> cases o' <;> first | rfl | cases ho
  have houtputs : u = u' := by cases u <;> cases u' <;> first | rfl | cases hu
  have hresults : r = r' := by cases r <;> cases r' <;> first | rfl | cases hr
  subst hpermissions hsecrets hcache henvironment hoidc houtputs hresults
  rfl

/-- Decisions are ordered in every dimension at once. -/
instance : PartialOrder TrustAuthorityDecision :=
  PartialOrder.lift ranks ranks_injective

instance : DecidableLE TrustAuthorityDecision :=
  fun left right => inferInstanceAs (Decidable (left.ranks ≤ right.ranks))

theorem denyAll_le (decision : TrustAuthorityDecision) : denyAll ≤ decision := by
  change ranks denyAll ≤ ranks decision
  simp [ranks, denyAll, Prod.le_def, TrustPermissionAuthority.rank, TrustSecretAuthority.rank,
    TrustCacheAuthority.rank, TrustEnvironmentAuthority.rank, TrustOidcAuthority.rank,
    TrustOutputAuthority.rank, TrustResultsAuthority.rank]

end TrustAuthorityDecision

variable (policy : TrustPolicy)

/-- What a policy gives to a class on its own. -/
def TrustPolicy.grants (source : TrustSourceClass) : TrustAuthorityDecision :=
  authorityDecision policy source true

def TrustPolicy.restricts : TrustSourceClass → Bool
  | .sameRepository => false
  | .fork => policy.forkWrites = .deny
  | _ => true

theorem TrustPolicy.grants_le_restricted_iff (source : TrustSourceClass) :
    policy.grants source ≤ .restricted .readOnly ↔ policy.restricts source = true := by
  cases hforks : policy.forkWrites <;> cases source <;>
    simp only [TrustPolicy.grants, authorityDecision, TrustPolicy.restricts, hforks] <;> decide

theorem TrustPolicy.grants_le_fork_iff (source : TrustSourceClass) :
    policy.grants source ≤ policy.grants .fork ↔ source ≠ .sameRepository := by
  cases hforks : policy.forkWrites <;> cases source <;>
    simp only [TrustPolicy.grants, authorityDecision, hforks] <;> decide

namespace TrustEvidence

def automationClass : TrustAutomationKind → Option TrustSourceClass
  | .none => none
  | .dependabot => some .dependabot
  | .other => some .automation

def actorClass (actor : Option TrustActorEvidence) : Option TrustSourceClass :=
  actor.bind fun actor => automationClass actor.automation

variable (evidence : TrustEvidence)

def constituents : List TrustSourceClass :=
  (if evidence.fork = some true then [.fork] else []) ++
    (actorClass evidence.originalActor).toList ++
    (actorClass evidence.sourceActor).toList ++
    (if evidence.event = .mergeGroup ∧ evidence.upstream = none then
      [.mergeQueue] else []) ++
    (evidence.upstream.map TrustUpstreamEvidence.source).toList

def automated : Bool :=
  (actorClass evidence.originalActor).isSome || (actorClass evidence.sourceActor).isSome

/-- Where every constituent bounds the decision. -/
def Reduces (policy : TrustPolicy) : Prop :=
  evidence.isComplete policy = false ∨
    match evidence.upstream with
    | some upstream =>
      (evidence.fork = some true → upstream.source ≠ .sameRepository) ∧
        (evidence.automated = true → policy.restricts upstream.source = true)
    | none =>
      evidence.event = .mergeGroup ∨ (evidence.fork ≠ some true →
          (actorClass evidence.originalActor).isSome = true → (actorClass
              (evidence.sourceActor.or evidence.originalActor)).isSome =
              true) ∧
        (evidence.fork = some true → evidence.automated = true → policy.forkWrites = .deny)

variable {evidence} {policy : TrustPolicy}

variable (policy) in
theorem bounded_actor_iff {actor : Option TrustActorEvidence} {decision : TrustAuthorityDecision} :
    (∀ source ∈ (actorClass actor).toList, decision ≤ policy.grants source) ↔
      ((actorClass actor).isSome = true → decision ≤ .restricted .readOnly) := by
  cases actor with
  | none => simp [actorClass]
  | some actor =>
    cases hautomation : actor.automation <;>
      simp [actorClass, automationClass, hautomation, TrustPolicy.grants, authorityDecision]

theorem bounded_iff {decision : TrustAuthorityDecision} :
    (∀ source ∈ evidence.constituents, decision ≤ policy.grants source) ↔
      (evidence.fork = some true → decision ≤ policy.grants .fork) ∧
      (evidence.automated = true → decision ≤ .restricted .readOnly) ∧
      (evidence.event = .mergeGroup → evidence.upstream = none → decision ≤ .restricted .readOnly) ∧
      (∀ upstream, evidence.upstream = some upstream →
        decision ≤ policy.grants upstream.source) := by
  have hmergeQueue : policy.grants .mergeQueue = .restricted .readOnly := rfl
  have hautomated :
      (evidence.automated = true → decision ≤ .restricted .readOnly) ↔
        ((actorClass evidence.originalActor).isSome = true → decision ≤ .restricted .readOnly) ∧
        ((actorClass evidence.sourceActor).isSome = true → decision ≤ .restricted .readOnly) := by
    simp only [automated, Bool.or_eq_true]
    exact or_imp
  have hfork :
      (∀ source ∈ if evidence.fork = some true
          then [TrustSourceClass.fork] else [],
          decision ≤ policy.grants source) ↔
        (evidence.fork = some true → decision ≤ policy.grants .fork) := by
    by_cases hfork : evidence.fork = some true <;> simp [hfork]
  have hmerge :
      (∀ source ∈ if evidence.event = .mergeGroup ∧ evidence.upstream = none
          then [TrustSourceClass.mergeQueue] else [],
          decision ≤ policy.grants source) ↔
        (evidence.event = .mergeGroup → evidence.upstream = none →
          decision ≤ .restricted .readOnly) := by
    by_cases hmerge :
        evidence.event = .mergeGroup ∧ evidence.upstream = none
    · simp [hmerge, hmergeQueue]
    · rw [if_neg hmerge]
      simp only [List.not_mem_nil, false_implies, implies_true, true_iff]
      exact fun hevent hupstream => absurd ⟨hevent, hupstream⟩ hmerge
  have hupstream :
      (∀ source ∈ (evidence.upstream.map TrustUpstreamEvidence.source).toList,
          decision ≤ policy.grants source) ↔
        (∀ upstream, evidence.upstream = some upstream →
          decision ≤ policy.grants upstream.source) := by
    cases evidence.upstream <;> simp
  rw [hautomated, ← bounded_actor_iff policy, ← bounded_actor_iff policy,
    ← hfork, ← hmerge, ← hupstream]
  simp only [constituents, List.mem_append, or_imp, forall_and, and_assoc]

theorem actorClass_isSome_iff {actor : Option TrustActorEvidence} :
    (actorClass actor).isSome = true ↔ actor.any (isAutomation .dependabot) = true ∨
        actor.any (isAutomation .other) = true := by
  cases actor with
  | none => simp [actorClass]
  | some actor =>
    cases hautomation : actor.automation <;>
      simp [actorClass, automationClass, isAutomation, hautomation]

variable {source : TrustSourceClass}

theorem source_of_upstream {upstream : TrustUpstreamEvidence}
    (hupstream : evidence.upstream = some upstream)
    (hsource : sourceClassification evidence true = .ok source) : source = upstream.source := by
  unfold sourceClassification at hsource
  simp only [Bool.true_eq_false, if_false, hupstream] at hsource
  split_ifs at hsource
  exact (Except.ok.inj hsource).symm

theorem source_of_event (hupstream : evidence.upstream = none)
    (hevent : evidence.event ≠ .mergeGroup)
    (hsource : sourceClassification evidence true = .ok source) :
    let actor := evidence.sourceActor.or evidence.originalActor
    (source = .dependabot ∧ evidence.fork ≠ some true ∧ (actorClass actor).isSome = true) ∨
      (source = .fork ∧ evidence.fork = some true) ∨
      (source = .automation ∧ evidence.fork ≠ some true ∧ (actorClass actor).isSome = true) ∨
      (source = .sameRepository ∧ evidence.fork ≠ some true ∧
        (actorClass actor).isSome = false) := by
  intro actor
  unfold sourceClassification at hsource
  simp only [Bool.true_eq_false, if_false, hupstream, if_neg hevent] at hsource
  have hclass : (actorClass actor).isSome = true ↔ _ := actorClass_isSome_iff
  split_ifs at hsource with hconflict hdependabot hfork hother
  · have hfork : evidence.fork ≠ some true := fun hfork => hconflict ⟨hdependabot, hfork⟩
    exact .inl ⟨(Except.ok.inj hsource).symm, hfork, hclass.mpr (.inl hdependabot)⟩
  · exact .inr (.inl ⟨(Except.ok.inj hsource).symm, hfork⟩)
  · exact .inr (.inr (.inl ⟨(Except.ok.inj hsource).symm, hfork, hclass.mpr (.inr hother)⟩))
  · refine .inr (.inr (.inr ⟨(Except.ok.inj hsource).symm, hfork, ?_⟩))
    rw [← Bool.not_eq_true, hclass]
    exact not_or.mpr ⟨hdependabot, hother⟩

/-- With no automation in the place which the classification looks at, an
automation is the original actor behind another source actor. -/
theorem automated_of_unclassified (hactor : (actorClass
      (evidence.sourceActor.or evidence.originalActor)).isSome = false) :
    evidence.automated = (actorClass evidence.originalActor).isSome := by
  unfold automated
  cases hsource : evidence.sourceActor with
  | none => simp [actorClass]
  | some =>
    rw [hsource, Option.some_or] at hactor
    rw [hactor, Bool.or_false]

/-- With complete evidence, the class is bounded by every constituent exactly
where the evidence reduces. -/
theorem classified_bounded_iff (hcomplete : evidence.isComplete policy = true)
    (hsource : sourceClassification evidence true = .ok source) :
    (∀ constituent ∈ evidence.constituents, policy.grants source ≤ policy.grants constituent) ↔
      evidence.Reduces policy := by
  rw [bounded_iff, policy.grants_le_restricted_iff source, policy.grants_le_fork_iff source]
  unfold Reduces
  rw [hcomplete]
  simp only [Bool.true_eq_false, false_or]
  cases hupstream : evidence.upstream with
  | some =>
    have hclass := source_of_upstream hupstream hsource
    subst hclass
    simp
  | none =>
    by_cases hevent : evidence.event = .mergeGroup
    · have hclass : source = .mergeQueue := by
        unfold sourceClassification at hsource
        simp only [Bool.true_eq_false, if_false, hupstream, if_pos hevent] at hsource
        split_ifs at hsource
        exact (Except.ok.inj hsource).symm
      subst hclass
      simp [hevent, TrustPolicy.restricts]
    · rcases source_of_event hupstream hevent hsource with
        ⟨hclass, hfork, hactor⟩ | ⟨hclass, hfork⟩ |
          ⟨hclass, hfork, hactor⟩ | ⟨hclass, hfork, hactor⟩ <;>
        subst hclass
      · simp [hevent, hfork, hactor, TrustPolicy.restricts]
      · simp [hevent, hfork, TrustPolicy.restricts]
      · simp [hevent, hfork, hactor, TrustPolicy.restricts]
      · have hautomated := automated_of_unclassified hactor
        simp [hevent, hfork, hactor, TrustPolicy.restricts, hautomated]

end TrustEvidence

section Evaluations

variable {encoding : TrustEncoding} {policy : TrustPolicy}
  {evidence : TrustEvidence} {snapshot : TrustSnapshot}

section

variable (heval : policy.evaluate encoding evidence = .ok snapshot)

include heval

theorem document_of_evaluate :
    ∃ source, sourceClassification evidence (evidence.isComplete policy) = .ok source ∧
        snapshot.document.source = source ∧
        snapshot.document.evidenceComplete = evidence.isComplete policy ∧
        snapshot.document.authority =
          authorityDecision policy source (evidence.isComplete policy) := by
  simp only [TrustPolicy.evaluate, TrustSnapshot.fromDocument,
    GuardedResult.bind_eq_ok, GuardedResult.pure_eq_ok] at heval
  obtain ⟨_, -, source, hsource, _, -, _, -, hsnapshot⟩ := heval
  subst hsnapshot
  exact ⟨source, hsource, rfl, rfl, rfl⟩

theorem authority_eq_grants :
    snapshot.document.authority = policy.grants snapshot.document.source := by
  obtain ⟨source, hsource, hclass, hcomplete, hauthority⟩ := document_of_evaluate heval
  rw [hauthority, hclass]
  cases hdone : evidence.isComplete policy with
  | true => rfl
  | false =>
    rw [hdone] at hsource
    cases hsource
    rfl

theorem authority_of_incomplete (hincomplete : evidence.isComplete policy = false) :
    snapshot.document.authority = .denyAll := by
  obtain ⟨source, hsource, hclass, hcomplete, hauthority⟩ := document_of_evaluate heval
  rw [hauthority, hincomplete]
  rfl

theorem authority_bounded_iff :
    (∀ constituent ∈ evidence.constituents,
        snapshot.document.authority ≤ policy.grants constituent) ↔
      evidence.Reduces policy := by
  cases hdone : evidence.isComplete policy with
  | false =>
    have hdeny := authority_of_incomplete heval hdone
    rw [hdeny]
    refine iff_of_true (fun _ _ => ?_) (.inl hdone)
    exact TrustAuthorityDecision.denyAll_le _
  | true =>
    obtain ⟨source, hsource, hclass, hcomplete, hauthority⟩ := document_of_evaluate heval
    rw [hdone] at hsource
    rw [authority_eq_grants heval, hclass]
    exact TrustEvidence.classified_bounded_iff hdone hsource

end

/-- A merge-group or workflow-run evaluation whose upstream evidence is that
of another snapshot. -/
def TrustPolicy.Chains (policy : TrustPolicy) (encoding : TrustEncoding)
    (previous next : TrustSnapshot) : Prop :=
  ∃ evidence upstream, evidence.carriesUpstream = true ∧ evidence.upstream = some upstream ∧
      upstream.snapshotDigest = previous.digest ∧
      upstream.evidenceComplete = previous.document.evidenceComplete ∧
      upstream.source = previous.document.source ∧
      policy.evaluate encoding evidence = .ok next

variable {previous next : TrustSnapshot}

theorem TrustPolicy.Chains.evaluated (hchains : policy.Chains encoding previous next) :
    next.document.authority = policy.grants next.document.source := by
  obtain ⟨evidence, upstream, -, -, -, -, -, heval⟩ := hchains
  exact authority_eq_grants heval

theorem TrustPolicy.Chains.authority_le
    (hprevious : previous.document.authority = policy.grants previous.document.source)
    (hchains : policy.Chains encoding previous next) :
    next.document.authority ≤ previous.document.authority := by
  obtain ⟨evidence, upstream, -, hupstream, -, -, hsame, heval⟩ := hchains
  cases hdone : evidence.isComplete policy with
  | false =>
    rw [authority_of_incomplete heval hdone]
    exact TrustAuthorityDecision.denyAll_le _
  | true =>
    obtain ⟨source, hsource, hclass, -, -⟩ := document_of_evaluate heval
    rw [hdone] at hsource
    have hupstreamClass := TrustEvidence.source_of_upstream hupstream hsource
    rw [authority_eq_grants heval, hprevious, hclass, hupstreamClass, hsame]

theorem authority_le_of_chain {last : TrustSnapshot}
    (hfirst : snapshot.document.authority = policy.grants snapshot.document.source)
    (hchain : Relation.ReflTransGen (policy.Chains encoding) snapshot last) :
    last.document.authority = policy.grants last.document.source ∧
      last.document.authority ≤ snapshot.document.authority := by
  induction hchain with
  | refl => exact ⟨hfirst, le_refl _⟩
  | tail hbefore hstep ih => exact ⟨hstep.evaluated, (hstep.authority_le ih.1).trans ih.2⟩

/-- Trust is reduced: a decision is at most what every constituent class is
given exactly where the evidence reduces, missing dimensions deny everything,
and along chains the authority stays below every earlier one. -/
theorem trust_is_reduced {last : TrustSnapshot}
    (heval : policy.evaluate encoding evidence = .ok snapshot)
    (hchain : Relation.ReflTransGen (policy.Chains encoding) snapshot last) :
    ((∀ constituent ∈ evidence.constituents,
        snapshot.document.authority ≤ policy.grants constituent) ↔
      evidence.Reduces policy) ∧
    (evidence.isComplete policy = false → snapshot.document.authority = .denyAll) ∧
    last.document.authority ≤ snapshot.document.authority ∧
    (evidence.Reduces policy → ∀ constituent ∈ evidence.constituents,
        last.document.authority ≤ policy.grants constituent) := by
  have hbounded := authority_bounded_iff heval
  have hlast := (authority_le_of_chain (authority_eq_grants heval) hchain).2
  refine ⟨hbounded, authority_of_incomplete heval, hlast, ?_⟩
  intro hreduces constituent hmem
  exact hlast.trans (hbounded.mpr hreduces constituent hmem)

end Evaluations

def plainEncoding : TrustEncoding :=
  ⟨fun _ => ⟨1⟩, fun _ => [], fun _ => ⟨1⟩⟩

def forkPullRequest : TrustEvidence :=
  { TrustEvidence.new .providerWebhook .pullRequest with
    originalActor := some ⟨['7'], .user, .none⟩
    sourceActor := some ⟨['7'], .user, .none⟩
    sourceRepository := some ⟨['2'], ['7']⟩
    targetRepository := some ⟨['1'], ['3']⟩
    sourceRef := some ['t']
    targetRef := some ['m']
    executionRef := some ['t']
    sourceRevision := some ['a']
    targetRevision := some ['b']
    executionRevision := some ['a']
    fork := some true }

def chainedRun : TrustEvidence :=
  { forkPullRequest with
    origin := .workflowRun
    event := .workflowRun
    upstream := some ⟨⟨1⟩, 1, true, .fork⟩ }

def forkSnapshot (evidence : TrustEvidence) : TrustSnapshot :=
  ⟨⟨1, TrustPolicy.current.document, ⟨1⟩, evidence, true, .fork,
    .restricted .readOnly⟩, [], ⟨1⟩, false⟩

theorem trust_is_reduced_chainedRun :
    TrustPolicy.current.evaluate plainEncoding forkPullRequest =
        .ok (forkSnapshot forkPullRequest) ∧
      (forkSnapshot chainedRun).document.authority ≤ TrustPolicy.current.grants .fork := by
  have heval :
      TrustPolicy.current.evaluate plainEncoding forkPullRequest =
        .ok (forkSnapshot forkPullRequest) := by
    decide +kernel
  have hchains :
      TrustPolicy.current.Chains plainEncoding
        (forkSnapshot forkPullRequest) (forkSnapshot chainedRun) := by
    refine ⟨chainedRun, ⟨⟨1⟩, 1, true, .fork⟩, rfl, rfl, rfl, rfl, rfl, ?_⟩
    decide +kernel
  have hreduces : forkPullRequest.Reduces TrustPolicy.current :=
    .inr (.inr ⟨fun hfork => absurd rfl hfork, fun _ _ => rfl⟩)
  have htrust := trust_is_reduced heval (.single hchains)
  exact ⟨heval, htrust.2.2.2 hreduces .fork (by decide)⟩

def pullRequestBy (policy : TrustPolicy) (sender author : GithubEventActor)
    (sourceRepository : Nat) : Except TrustSnapshotError TrustSnapshot :=
  deriveGithubTrustSnapshot plainEncoding (.pullRequest
      ⟨some sender, some author, ⟨1, 2⟩, ⟨sourceRepository, 2⟩,
        "opened".toList, "a".toList, "b".toList, "a".toList,
        "topic".toList, "main".toList, "topic".toList⟩)
    policy ⟨none, none, none⟩

/-- Dependabot acting on a pull request which someone else has opened gets full
authority, and a bot acting from a fork gets write permissions where forks
may. -/
theorem unseen_automation_not_reduced :
    (pullRequestBy .current ⟨3, some "dependabot[bot]".toList, some .bot⟩
        ⟨4, some "octocat".toList, some .user⟩ 1).map
        (fun snapshot =>
          (snapshot.document.evidence.constituents, snapshot.document.authority,
            decide (snapshot.document.authority ≤ TrustPolicy.current.grants .dependabot))) =
      .ok ([.dependabot], .full, false) ∧
    (pullRequestBy ⟨2, .allowExplicitly, .requireExternalOrigin⟩
        ⟨3, some "renovate[bot]".toList, some .bot⟩
        ⟨3, some "renovate[bot]".toList, some .bot⟩ 9).map
        (fun snapshot =>
          (snapshot.document.evidence.constituents, snapshot.document.authority,
            decide (snapshot.document.authority ≤
              TrustPolicy.grants ⟨2, .allowExplicitly, .requireExternalOrigin⟩ .automation))) =
      .ok ([.fork, .automation, .automation], .restricted .requested, false) := by
  constructor <;> decide +kernel

end AutomataCi
