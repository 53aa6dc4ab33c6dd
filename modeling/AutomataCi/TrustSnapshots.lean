import AutomataCi.PermissionResolution
import AutomataCi.TextOperations

/-!
# Trust snapshots

The evidence of an event, the policy which reduces its authority, and the
snapshot which every consumer of the authority reads.  The JSON encoding and
the two digests are parameters: nothing here depends on their bytes.
-/

namespace AutomataCi

open TextOperations GuardedResult

inductive TrustSnapshotError where
  | invalidText
  | conflictingEvidence
  | invalidTransitiveEvidence
  | rerunMustReuseSnapshot
  | unsupportedSchema
  | noncanonicalDecision
  | invalidEncoding
  | noncanonicalEncoding
  | digestMismatch
  deriving DecidableEq, Repr

def maxTrustTextBytes : Nat :=
  1024

def maxTrustSnapshotBytes : Nat :=
  32768

def validateText (value : Text) : Except TrustSnapshotError Unit :=
  rejectIf (value = [] ∨ maxTrustTextBytes < (utf8Bytes value).length ∨
      trim value ≠ value ∨ value.any isControl = true)
    .invalidText

inductive ForkWritePolicy where
  | deny | allowExplicitly
  deriving DecidableEq, Repr

inductive DispatchRecursionPolicy where
  | requireExternalOrigin | allowExplicitly
  deriving DecidableEq, Repr

structure TrustPolicyDocument where
  (schema revision : Nat)
  forkWrites : ForkWritePolicy
  dispatchRecursion : DispatchRecursionPolicy
  deriving DecidableEq, Repr

structure TrustPolicy where
  revision : Nat
  forkWrites : ForkWritePolicy
  dispatchRecursion : DispatchRecursionPolicy
  deriving DecidableEq, Repr

def trustPolicySchemaV1 : Nat :=
  1

def trustSnapshotSchemaV1 : Nat :=
  1

def TrustPolicy.document (policy : TrustPolicy) : TrustPolicyDocument :=
  ⟨trustPolicySchemaV1, policy.revision, policy.forkWrites, policy.dispatchRecursion⟩

def TrustPolicy.current : TrustPolicy :=
  ⟨1, .deny, .requireExternalOrigin⟩

inductive TrustOriginKind where
  | providerWebhook | workflowDispatch | schedule | workflowRun | rerun
  deriving DecidableEq, Repr

inductive TrustEventKind where
  | push
  | pullRequest
  | pullRequestTarget
  | mergeGroup
  | repositoryDispatch
  | workflowDispatch
  | schedule
  | workflowRun
  deriving DecidableEq, Repr

inductive TrustActorKind where
  | user | bot | organization | mannequin | system
  deriving DecidableEq, Repr

inductive TrustAutomationKind where
  | none | dependabot | other
  deriving DecidableEq, Repr

structure TrustActorEvidence where
  id : Text
  kind : TrustActorKind
  automation : TrustAutomationKind
  deriving DecidableEq, Repr

def TrustActorEvidence.new (id : Text) (kind : TrustActorKind) (automation : TrustAutomationKind) :
    Except TrustSnapshotError TrustActorEvidence := do
  validateText id
  pure ⟨id, kind, automation⟩

structure TrustRepositoryEvidence where
  (id ownerId : Text)
  deriving DecidableEq, Repr

def TrustRepositoryEvidence.new (id ownerId : Text) :
    Except TrustSnapshotError TrustRepositoryEvidence := do
  validateText id
  validateText ownerId
  pure ⟨id, ownerId⟩

inductive TrustTokenRecursion where
  | suppressed | external | explicitlyAllowed | unknown
  deriving DecidableEq, Repr

inductive TrustSourceClass where
  | sameRepository | fork | dependabot | automation | mergeQueue | incomplete
  deriving DecidableEq, Repr

structure TrustUpstreamEvidence where
  snapshotDigest : Sha256Digest
  chainDepth : Nat
  evidenceComplete : Bool
  source : TrustSourceClass
  deriving DecidableEq, Repr

structure TrustEvidence where
  origin : TrustOriginKind
  event : TrustEventKind
  activity : Option Text
  (originalActor triggeringActor sourceActor : Option TrustActorEvidence)
  (sourceRepository targetRepository : Option TrustRepositoryEvidence)
  (sourceRef targetRef executionRef sourceRevision targetRevision executionRevision : Option Text)
  fork : Option Bool
  privilegedTransition : Bool
  upstream : Option TrustUpstreamEvidence
  tokenRecursion : TrustTokenRecursion
  deriving DecidableEq, Repr

namespace TrustEvidence

def new (origin : TrustOriginKind) (event : TrustEventKind) : TrustEvidence :=
  ⟨origin, event, none, none, none, none, none, none, none, none, none,
    none, none, none, none, false, none, .unknown⟩

def expectedOrigin : TrustEventKind → TrustOriginKind
  | .push | .pullRequest | .pullRequestTarget | .mergeGroup
  | .repositoryDispatch => .providerWebhook
  | .workflowDispatch => .workflowDispatch
  | .schedule => .schedule
  | .workflowRun => .workflowRun

variable (evidence : TrustEvidence)

def contradictsFork : Bool :=
  match evidence.sourceRepository, evidence.targetRepository, evidence.fork with
  | some source, some target, some fork => (source.id != target.id) != fork
  | _, _, _ => false

def carriesUpstream : Bool :=
  evidence.event = .mergeGroup || evidence.event = .workflowRun

def validateUpstream (upstream : TrustUpstreamEvidence) : Except TrustSnapshotError Unit :=
  rejectIf
    (¬ (1 ≤ upstream.chainDepth ∧ upstream.chainDepth ≤ 3) ∨ upstream.snapshotDigest.bits = 0 ∨
      upstream.evidenceComplete ≠ (upstream.source != .incomplete))
    .invalidTransitiveEvidence

def validate : Except TrustSnapshotError Unit := do
  [evidence.activity, evidence.sourceRef, evidence.targetRef,
    evidence.executionRef, evidence.sourceRevision, evidence.targetRevision,
    evidence.executionRevision].reduceOption.forM validateText
  rejectIf (evidence.origin ≠ expectedOrigin evidence.event ∧ evidence.origin ≠ .rerun)
    .conflictingEvidence
  rejectIf (evidence.origin = .rerun) .rerunMustReuseSnapshot
  rejectIf (evidence.contradictsFork = true) .conflictingEvidence
  rejectIf (evidence.carriesUpstream = false ∧ evidence.upstream.isSome = true) .conflictingEvidence
  ifPresent evidence.upstream validateUpstream
  rejectIf (evidence.event = .repositoryDispatch ∧ evidence.tokenRecursion = .suppressed)
    .conflictingEvidence

def baseComplete : Bool :=
  evidence.originalActor.isSome &&
    (evidence.sourceRepository.isSome && evidence.targetRepository.isSome &&
      evidence.fork.isSome) &&
    (evidence.sourceRef.isSome && evidence.targetRef.isSome && evidence.executionRef.isSome) &&
    (evidence.sourceRevision.isSome && evidence.targetRevision.isSome &&
      evidence.executionRevision.isSome)

def upstreamComplete (upstream : TrustUpstreamEvidence) : Bool :=
  upstream.evidenceComplete && upstream.chainDepth ≤ 3

def isComplete (policy : TrustPolicy) : Bool :=
  match evidence.event with
  | .push =>
    evidence.baseComplete && evidence.fork = some false && evidence.tokenRecursion = .suppressed
  | .pullRequest => evidence.baseComplete && evidence.sourceActor.isSome
  | .pullRequestTarget =>
    evidence.baseComplete && evidence.sourceActor.isSome && evidence.privilegedTransition
  | .mergeGroup =>
    evidence.baseComplete && evidence.tokenRecursion = .suppressed &&
      evidence.upstream.all upstreamComplete
  | .repositoryDispatch =>
    evidence.baseComplete && (evidence.tokenRecursion = .external ||
        (evidence.tokenRecursion = .explicitlyAllowed &&
          policy.dispatchRecursion = .allowExplicitly))
  | .workflowDispatch | .schedule => evidence.baseComplete && evidence.fork = some false
  | .workflowRun => evidence.baseComplete && evidence.upstream.any upstreamComplete

end TrustEvidence

inductive TrustSecretAuthority where
  | eligible | denied
  deriving DecidableEq, Repr

inductive TrustCacheAuthority where
  | readWrite | readOnly | denied
  deriving DecidableEq, Repr

inductive TrustEnvironmentAuthority where
  | eligible | denied
  deriving DecidableEq, Repr

inductive TrustOidcAuthority where
  | eligible | denied
  deriving DecidableEq, Repr

inductive TrustOutputAuthority where
  | standard | untrusted
  deriving DecidableEq, Repr

inductive TrustResultsAuthority where
  | standard | untrusted | denied
  deriving DecidableEq, Repr

structure TrustAuthorityDecision where
  permissions : TrustPermissionAuthority
  secrets : TrustSecretAuthority
  cache : TrustCacheAuthority
  environment : TrustEnvironmentAuthority
  oidc : TrustOidcAuthority
  outputs : TrustOutputAuthority
  results : TrustResultsAuthority
  deriving DecidableEq, Repr

def TrustAuthorityDecision.denyAll : TrustAuthorityDecision :=
  ⟨.denyAll, .denied, .denied, .denied, .denied, .untrusted, .denied⟩

/-- What a restricted source is given, but for its permissions. -/
def TrustAuthorityDecision.restricted
    (permissions : TrustPermissionAuthority) : TrustAuthorityDecision :=
  ⟨permissions, .denied, .readOnly, .denied, .denied, .untrusted, .untrusted⟩

def TrustAuthorityDecision.full : TrustAuthorityDecision :=
  ⟨.requested, .eligible, .readWrite, .eligible, .eligible, .standard, .standard⟩

def isAutomation (automation : TrustAutomationKind) (actor : TrustActorEvidence) : Bool :=
  actor.automation = automation

def sourceClassification (evidence : TrustEvidence) (complete : Bool) :
    Except TrustSnapshotError TrustSourceClass :=
  if complete = false then .ok .incomplete
  else
    let sourceActor := evidence.sourceActor.or evidence.originalActor
    let dependabot := sourceActor.any (isAutomation .dependabot)
    if dependabot = true ∧ evidence.fork = some true then
      .error .conflictingEvidence
    else
      match evidence.upstream with
      | some upstream => .ok upstream.source
      | none =>
        .ok (if evidence.event = .mergeGroup then .mergeQueue
          else if dependabot = true then .dependabot
          else if evidence.fork = some true then .fork
          else if sourceActor.any (isAutomation .other) = true then
            .automation
          else .sameRepository)

def authorityDecision (policy : TrustPolicy) (source : TrustSourceClass)
    (complete : Bool) : TrustAuthorityDecision :=
  if complete = false ∨ source = .incomplete then .denyAll
  else
    match source with
    | .sameRepository => .full
    | .fork =>
      .restricted (if policy.forkWrites = .allowExplicitly then .requested
          else .readOnly)
    | .dependabot | .automation | .mergeQueue => .restricted .readOnly
    | .incomplete => .denyAll

structure TrustSnapshotDocument where
  schema : Nat
  policy : TrustPolicyDocument
  policyDigest : Sha256Digest
  evidence : TrustEvidence
  evidenceComplete : Bool
  source : TrustSourceClass
  authority : TrustAuthorityDecision
  deriving DecidableEq, Repr

structure TrustSnapshot where
  document : TrustSnapshotDocument
  canonicalBytes : Bytes
  digest : Sha256Digest
  constructionPlaceholder : Bool
  deriving DecidableEq, Repr

/-- The canonical JSON of policies and snapshots, and the digests of it. -/
structure TrustEncoding where
  policyDigest : TrustPolicyDocument → Sha256Digest
  canonicalBytes : TrustSnapshotDocument → Bytes
  snapshotDigest : Bytes → Sha256Digest

def TrustPolicy.digest (policy : TrustPolicy) (encoding : TrustEncoding) : Sha256Digest :=
  encoding.policyDigest policy.document

variable (encoding : TrustEncoding)

def validateDocument (document : TrustSnapshotDocument) : Except TrustSnapshotError Unit := do
  rejectIf (document.schema ≠ trustSnapshotSchemaV1 ∨ document.policy.schema ≠ trustPolicySchemaV1)
    .unsupportedSchema
  let policy : TrustPolicy :=
    ⟨document.policy.revision, document.policy.forkWrites, document.policy.dispatchRecursion⟩
  rejectIf (policy.digest encoding ≠ document.policyDigest) .digestMismatch
  document.evidence.validate
  let complete := document.evidence.isComplete policy
  let source ← sourceClassification document.evidence complete
  rejectIf (document.evidenceComplete ≠ complete ∨ document.source ≠ source ∨
      document.authority ≠ authorityDecision policy source complete)
    .noncanonicalDecision

def TrustSnapshot.fromDocument (document : TrustSnapshotDocument) :
    Except TrustSnapshotError TrustSnapshot := do
  validateDocument encoding document
  let canonicalBytes := encoding.canonicalBytes document
  rejectIf (maxTrustSnapshotBytes < canonicalBytes.length) .invalidEncoding
  pure ⟨document, canonicalBytes, encoding.snapshotDigest canonicalBytes, false⟩

def TrustPolicy.evaluate (policy : TrustPolicy) (evidence : TrustEvidence) :
    Except TrustSnapshotError TrustSnapshot := do
  evidence.validate
  let complete := evidence.isComplete policy
  let source ← sourceClassification evidence complete
  TrustSnapshot.fromDocument encoding
    { schema := trustSnapshotSchemaV1
      policy := policy.document
      policyDigest := policy.digest encoding
      evidence := evidence
      evidenceComplete := complete
      source := source
      authority := authorityDecision policy source complete }

inductive GithubEventActorKind where
  | user | bot | organization | mannequin
  deriving DecidableEq, Repr

structure GithubEventActor where
  id : Nat
  login : Option Text
  kind : Option GithubEventActorKind
  deriving DecidableEq, Repr

structure GithubEventRepositoryFacts where
  (id ownerId : Nat)
  deriving DecidableEq, Repr

structure GithubPushEventFacts where
  actor : Option GithubEventActor
  targetRepository : GithubEventRepositoryFacts
  (gitRef beforeRevision afterRevision : Text)
  deriving DecidableEq, Repr

structure GithubPullRequestEventFacts where
  (actor sourceActor : Option GithubEventActor)
  (targetRepository sourceRepository : GithubEventRepositoryFacts)
  (action sourceRevision targetRevision executionRevision sourceRef targetRef executionRef : Text)
  deriving DecidableEq, Repr

structure GithubMergeGroupEventFacts where
  actor : Option GithubEventActor
  targetRepository : GithubEventRepositoryFacts
  (action executionRevision targetRevision executionRef targetRef : Text)
  deriving DecidableEq, Repr

structure GithubRepositoryDispatchEventFacts where
  actor : Option GithubEventActor
  targetRepository : GithubEventRepositoryFacts
  (eventType gitRef : Text)
  deriving DecidableEq, Repr

inductive GithubEventFacts where
  | push (facts : GithubPushEventFacts)
  | pullRequest (facts : GithubPullRequestEventFacts)
  | mergeGroup (facts : GithubMergeGroupEventFacts)
  | repositoryDispatch (facts : GithubRepositoryDispatchEventFacts)
  deriving DecidableEq, Repr

structure GithubTrustDerivation where
  repositoryDispatchRevision : Option Text
  repositoryDispatchRecursion : Option TrustTokenRecursion
  mergeGroupUpstream : Option TrustUpstreamEvidence
  deriving DecidableEq, Repr

namespace GithubTrust

def decimal (value : Nat) : Text :=
  Nat.toDigits 10 value

def trustKind : GithubEventActorKind → TrustActorKind
  | .user => .user
  | .bot => .bot
  | .organization => .organization
  | .mannequin => .mannequin

def automationOf (login : Text) (kind : GithubEventActorKind) : TrustAutomationKind :=
  if sameIgnoringCase login "dependabot[bot]".toList = true ∨
      sameIgnoringCase login "dependabot".toList = true then .dependabot
  else if kind = .bot then .other
  else .none

def actor (facts : Option GithubEventActor) :
    Except TrustSnapshotError (Option TrustActorEvidence) :=
  match facts with
  | none => .ok none
  | some facts =>
    match facts.login, facts.kind with
    | some login, some kind => do
        let evidence ← TrustActorEvidence.new (decimal facts.id)
          (trustKind kind) (automationOf login kind)
        pure (some evidence)
    | _, _ => .ok none

def repository (facts : GithubEventRepositoryFacts) :
    Except TrustSnapshotError TrustRepositoryEvidence :=
  TrustRepositoryEvidence.new (decimal facts.id) (decimal facts.ownerId)

def withEventActor (evidence : TrustEvidence) (facts : Option GithubEventActor) :
    Except TrustSnapshotError TrustEvidence := do
  let found ← actor facts
  match found with
  | some actor =>
    pure { evidence with
      originalActor := some actor, triggeringActor := some actor }
  | none => pure evidence

def pushEvidence (facts : GithubPushEventFacts) : Except TrustSnapshotError TrustEvidence := do
  let repository ← repository facts.targetRepository
  withEventActor
    { TrustEvidence.new .providerWebhook .push with
      sourceRepository := some repository
      targetRepository := some repository
      sourceRef := some facts.gitRef
      targetRef := some facts.gitRef
      executionRef := some facts.gitRef
      sourceRevision := some facts.afterRevision
      targetRevision := some facts.beforeRevision
      executionRevision := some facts.afterRevision
      fork := some false
      tokenRecursion := .suppressed }
    facts.actor

def pullRequestEvidence (facts : GithubPullRequestEventFacts) :
    Except TrustSnapshotError TrustEvidence := do
  let source ← repository facts.sourceRepository
  let target ← repository facts.targetRepository
  let evidence ← withEventActor
    { TrustEvidence.new .providerWebhook .pullRequest with
      activity := some facts.action
      sourceRepository := some source
      targetRepository := some target
      sourceRef := some facts.sourceRef
      targetRef := some facts.targetRef
      executionRef := some facts.executionRef
      sourceRevision := some facts.sourceRevision
      targetRevision := some facts.targetRevision
      executionRevision := some facts.executionRevision
      fork := some (facts.sourceRepository.id != facts.targetRepository.id)
      tokenRecursion := .suppressed }
    facts.actor
  let sourceActor ← actor facts.sourceActor
  pure { evidence with sourceActor := sourceActor }

def mergeGroupEvidence (facts : GithubMergeGroupEventFacts) (derivation : GithubTrustDerivation) :
    Except TrustSnapshotError TrustEvidence := do
  let repository ← repository facts.targetRepository
  let evidence ← withEventActor
    { TrustEvidence.new .providerWebhook .mergeGroup with
      activity := some facts.action
      sourceRepository := some repository
      targetRepository := some repository
      sourceRef := some facts.executionRef
      targetRef := some facts.targetRef
      executionRef := some facts.executionRef
      sourceRevision := some facts.executionRevision
      targetRevision := some facts.targetRevision
      executionRevision := some facts.executionRevision
      fork := some false
      tokenRecursion := .suppressed }
    facts.actor
  pure { evidence with upstream := derivation.mergeGroupUpstream }

def dispatchEvidence (facts : GithubRepositoryDispatchEventFacts)
    (derivation : GithubTrustDerivation) :
    Except TrustSnapshotError TrustEvidence := do
  let repository ← repository facts.targetRepository
  let evidence ← withEventActor
    { TrustEvidence.new .providerWebhook .repositoryDispatch with
      activity := some facts.eventType
      sourceRepository := some repository
      targetRepository := some repository
      sourceRef := some facts.gitRef
      targetRef := some facts.gitRef
      executionRef := some facts.gitRef
      fork := some false
      tokenRecursion := derivation.repositoryDispatchRecursion.getD .unknown }
    facts.actor
  pure { evidence with
    sourceRevision := derivation.repositoryDispatchRevision
    targetRevision := derivation.repositoryDispatchRevision
    executionRevision := derivation.repositoryDispatchRevision }

def githubEvidence (derivation : GithubTrustDerivation) :
    GithubEventFacts → Except TrustSnapshotError TrustEvidence
  | .push facts => pushEvidence facts
  | .pullRequest facts => pullRequestEvidence facts
  | .mergeGroup facts => mergeGroupEvidence facts derivation
  | .repositoryDispatch facts => dispatchEvidence facts derivation

end GithubTrust

def deriveGithubTrustSnapshot (event : GithubEventFacts)
    (policy : TrustPolicy) (derivation : GithubTrustDerivation) :
    Except TrustSnapshotError TrustSnapshot := do
  let evidence ← GithubTrust.githubEvidence derivation event
  policy.evaluate encoding evidence

end AutomataCi
