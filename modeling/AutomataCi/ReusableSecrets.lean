import AutomataCi.OrderedMap
import AutomataCi.WorkflowPlans

/-!
# Secrets of reusable calls

The secrets of a reusable call are checked twice.  Admission binds the names
which the callee's contract asks for to names which the caller has, and stores
the bindings as the edges of the call.  The runtime computes the edges which
it expects from the call alone, and forwards the caller's secrets only when
the stored edges are those.

Admission compares names without regard to ASCII case and the runtime compares
them exactly.  The two agree exactly when the call, or under inheritance the
contract, spells every name as the caller does.
-/

namespace AutomataCi

open GuardedResult

inductive ReusableWorkflowExpansionError where
  | invalidIdentity
  | identityCollision
  | missingInvocationContract (path : String)
  | missingCatalogPath (path : String)
  | rootPlanMismatch
  | cycle (path : String)
  | depthLimitExceeded
  | invocationLimitExceeded
  | jobLimitExceeded
  | matrixCallUnsupported
  | unknownInput (name : String)
  | missingRequiredInput (name : String)
  | inputTypeMismatch (name : String)
  | unknownSecret (name : String)
  | unavailableSecret (name : String)
  | missingRequiredSecret (name : String)
  | unknownOutput (name : String)
  | outputSensitivityReduction (name : String)
  | sourceOrderOverflow
  | planSerialization
  | cancelled
  deriving DecidableEq, Repr

inductive ReusableWorkflowRuntimeError where
  | invalidEvidence
  deriving DecidableEq, Repr

structure ExpandedReusableSecret where
  (target source : String)
  deriving DecidableEq, Repr

def findAvailable (available : OrderedSet String) (name : String) : Option String :=
  available.toList.find? fun candidate => eqIgnoreAsciiCase candidate name

abbrev SuppliedSecrets :=
  OrderedMap String String

def supplyBinding (contract : WorkflowInvocationContract)
    (available : OrderedSet String) (supplied : SuppliedSecrets)
    (binding : ReusableSecretBinding) :
    Except ReusableWorkflowExpansionError SuppliedSecrets := do
  rejectIf (binding.target ∉ contract.secrets.map InvocationSecretDefinition.key)
    (.unknownSecret binding.target)
  let source ← okOr (findAvailable available binding.source) (.unavailableSecret binding.source)
  return supplied.insert binding.target source

def inheritDefinition (available : OrderedSet String)
    (supplied : SuppliedSecrets) (definition : InvocationSecretDefinition) :
    SuppliedSecrets :=
  match findAvailable available definition.key with
  | none => supplied
  | some source => (supplied.remove source).insert definition.key source

def inheritedNames (available : OrderedSet String) : SuppliedSecrets :=
  .tabulate available some

def suppliedSecrets (call : ReusableWorkflowInvocation)
    (contract : WorkflowInvocationContract) (available : OrderedSet String) :
    Except ReusableWorkflowExpansionError SuppliedSecrets :=
  match call.secrets with
  | .mapping bindings _ => bindings.foldlM (supplyBinding contract available) .empty
  | .inherit =>
    .ok (contract.secrets.foldl (inheritDefinition available) (inheritedNames available))

def secretEdges (supplied : SuppliedSecrets) : List ExpandedReusableSecret :=
  supplied.entries.map fun entry => ⟨entry.1, entry.2⟩

def validateSecrets (call : ReusableWorkflowInvocation)
    (contract : WorkflowInvocationContract) (available : OrderedSet String) :
    Except ReusableWorkflowExpansionError (List ExpandedReusableSecret) := do
  let supplied ← suppliedSecrets call contract available
  contract.secrets.forM fun definition =>
    rejectIf (definition.required = true ∧ definition.key ∉ supplied.keys)
      (.missingRequiredSecret definition.key)
  return secretEdges supplied

variable {β : Type}

def expectedSecrets (call : ReusableWorkflowInvocation)
    (available : OrderedSet String) : SuppliedSecrets :=
  match call.secrets with
  | .mapping bindings _ => .ofList (bindings.map fun binding => (binding.target, binding.source))
  | .inherit => inheritedNames available

def forwardedSecrets (edges : List ExpandedReusableSecret)
    (call : ReusableWorkflowInvocation) (available : OrderedMap String β) :
    Except ReusableWorkflowRuntimeError (OrderedMap String β) := do
  let expected := expectedSecrets call available.keys
  rejectIf (expected.entries.length ≠ edges.length ∨
      ∃ edge ∈ edges, expected.get edge.target ≠ some edge.source)
    .invalidEvidence
  let forwarded ← edges.mapM fun edge => do
    let binding ← okOr (available.get edge.source) .invalidEvidence
    return (edge.target, binding)
  return .ofList forwarded

variable {available : OrderedSet String} {name source : String}

theorem findAvailable_mem (hfound : findAvailable available name = some source) :
    source ∈ available :=
  OrderedSet.mem_def.mpr (List.mem_of_find?_eq_some hfound)

theorem findAvailable_spelling (hfound : findAvailable available name = some source) :
    toAsciiUppercase source = toAsciiUppercase name := by
  simpa using List.find?_some hfound

theorem findAvailable_congr {left right : String}
    (hsame : toAsciiUppercase left = toAsciiUppercase right) :
    findAvailable available left = findAvailable available right := by
  simp only [findAvailable, eqIgnoreAsciiCase, hsame]

theorem get_inheritedNames :
    (inheritedNames available).get name =
      if name ∈ available then some name else none :=
  OrderedMap.get_tabulate _ _ _

section Mapping

variable {contract : WorkflowInvocationContract}
variable {available : OrderedSet String}

theorem supplyBindings_get {bindings : List ReusableSecretBinding}
    (hdistinct : (bindings.map ReusableSecretBinding.target).Nodup)
    {start supplied : SuppliedSecrets}
    (hsupplied : bindings.foldlM (supplyBinding contract available) start = .ok supplied) :
    (∀ binding ∈ bindings, ∃ source, findAvailable available binding.source = some source ∧
        supplied.get binding.target = some source) ∧
    ∀ name, name ∉ bindings.map ReusableSecretBinding.target →
      supplied.get name = start.get name := by
  induction bindings generalizing start with
  | nil =>
    rw [List.foldlM_nil, pure_eq_ok] at hsupplied
    rw [hsupplied]
    simp
  | cons binding rest ih =>
    rw [List.map_cons, List.nodup_cons] at hdistinct
    simp only [List.foldlM_cons, bind_eq_ok, supplyBinding, pure_eq_ok, okOr_eq_ok] at hsupplied
    obtain ⟨_, ⟨_, _, source, hsource, rfl⟩, hrest⟩ := hsupplied
    obtain ⟨hbound, hother⟩ := ih hdistinct.2 hrest
    constructor
    · rw [List.forall_mem_cons]
      refine ⟨⟨source, hsource, ?_⟩, hbound⟩
      rw [hother _ hdistinct.1, OrderedMap.get_insert, if_pos rfl]
    · intro name hname
      rw [List.map_cons, List.mem_cons, not_or] at hname
      rw [hother name hname.2, OrderedMap.get_insert, if_neg hname.1]

end Mapping

section Inherit

variable {available : OrderedSet String} {name source : String}

variable {supplied : SuppliedSecrets} {definition : InvocationSecretDefinition}

theorem get_inheritDefinition :
    (inheritDefinition available supplied definition).get name =
      match findAvailable available definition.key with
      | none => supplied.get name
      | some source =>
        if name = definition.key then some source
        else if name = source then none
        else supplied.get name := by
  unfold inheritDefinition
  split
  next => rfl
  next => simp only [OrderedMap.get_insert, OrderedMap.get_remove]

variable {definitions : List InvocationSecretDefinition}

theorem inheritDefinitions_exact (hexact : ∀ definition ∈ definitions, ∀ source,
      findAvailable available definition.key = some source → source = definition.key) :
    definitions.foldl (inheritDefinition available)
      (inheritedNames available) = inheritedNames available := by
  induction definitions with
  | nil => rfl
  | cons definition rest ih =>
    rw [List.forall_mem_cons] at hexact
    have hstep : inheritDefinition available (inheritedNames available)
        definition = inheritedNames available := by
      ext1 name
      rw [get_inheritDefinition]
      split
      next => rfl
      next source hsource =>
        have hspelled := hexact.1 source hsource
        have hmem := findAvailable_mem hsource
        subst hspelled
        by_cases hname : name = definition.key
        · rw [if_pos hname, hname, get_inheritedNames, if_pos hmem]
        · rw [if_neg hname, if_neg hname]
    rw [List.foldl_cons, hstep]
    exact ih hexact.2

theorem inheritDefinitions_renamed (hfound : findAvailable available name = some source)
    (hrenamed : source ≠ name) (hsupplied : supplied.get name = some source) :
    (definitions.foldl (inheritDefinition available) supplied).get name = some source := by
  induction definitions generalizing supplied with
  | nil => exact hsupplied
  | cons definition rest ih =>
    rw [List.foldl_cons]
    apply ih
    rw [get_inheritDefinition]
    split
    next => exact hsupplied
    next other hother =>
      split
      next hname =>
        rw [← hname, hfound] at hother
        exact hother.symm
      next =>
        rw [if_neg, hsupplied]
        -- a removed name is the first of its spellings, which is `source`
        intro hremoved
        have hspelling := findAvailable_spelling hother
        have hsame : findAvailable available other = findAvailable available definition.key :=
          findAvailable_congr hspelling
        rw [← hremoved, hfound, hother, ← hremoved] at hsame
        exact hrenamed (Option.some.inj hsame)

/-- A secret which the contract spells in another way is bound under that
spelling. -/
theorem inheritDefinitions_bound (hdefinition : definition ∈ definitions)
    (hfound : findAvailable available definition.key = some source)
    (hrenamed : source ≠ definition.key) (supplied : SuppliedSecrets) :
    (definitions.foldl (inheritDefinition available) supplied).get
      definition.key = some source := by
  obtain ⟨front, back, rfl⟩ := List.append_of_mem hdefinition
  rw [List.foldl_append, List.foldl_cons]
  apply inheritDefinitions_renamed hfound hrenamed
  rw [get_inheritDefinition, hfound]
  exact if_pos rfl

theorem inheritDefinitions_available
    (hsupplied : ∀ name source, supplied.get name = some source → source ∈ available)
    (hget : (definitions.foldl (inheritDefinition available) supplied).get
      name = some source) : source ∈ available := by
  induction definitions generalizing supplied with
  | nil => exact hsupplied name source hget
  | cons definition rest ih =>
    apply ih _ hget
    intro other found hfound
    rw [get_inheritDefinition] at hfound
    split at hfound
    next => exact hsupplied other found hfound
    next first hfirst =>
      split at hfound
      next =>
        cases hfound
        exact findAvailable_mem hfirst
      next =>
        split at hfound
        next => cases hfound
        next => exact hsupplied other found hfound

end Inherit

/-- The call, or under inheritance the contract, spells every forwarded name
as the caller does. -/
def SpelledExactly (call : ReusableWorkflowInvocation)
    (contract : WorkflowInvocationContract) (available : OrderedSet String) :
    Prop :=
  match call.secrets with
  | .mapping bindings _ =>
    ∀ binding ∈ bindings, findAvailable available binding.source = some binding.source
  | .inherit =>
    ∀ definition ∈ contract.secrets, ∀ source,
      findAvailable available definition.key = some source → source = definition.key

section Agreement

variable {call : ReusableWorkflowInvocation}
variable {contract : WorkflowInvocationContract}
variable {available : OrderedSet String} {supplied : SuppliedSecrets}

theorem suppliedSecrets_available
    (hsupplied : suppliedSecrets call contract available = .ok supplied)
    {target source : String} (hget : supplied.get target = some source) :
    source ∈ available := by
  unfold suppliedSecrets at hsupplied
  split at hsupplied
  next bindings hdistinct _ =>
    obtain ⟨hbound, hother⟩ := supplyBindings_get hdistinct hsupplied
    by_cases htarget : target ∈ bindings.map ReusableSecretBinding.target
    · obtain ⟨binding, hbinding, rfl⟩ := List.mem_map.mp htarget
      obtain ⟨found, hfound, hsame⟩ := hbound binding hbinding
      rw [hget] at hsame
      rw [Option.some.inj hsame]
      exact findAvailable_mem hfound
    · rw [hother target htarget] at hget
      cases hget
  next =>
    cases hsupplied
    apply inheritDefinitions_available _ hget
    intro name found hfound
    rw [get_inheritedNames] at hfound
    split at hfound
    next hmem =>
      cases hfound
      exact hmem
    next => cases hfound

/-- The runtime expects what admission supplied exactly when the names are
spelled as the caller spells them. -/
theorem expectedSecrets_eq_iff
    (hsupplied : suppliedSecrets call contract available = .ok supplied) :
    expectedSecrets call available = supplied ↔ SpelledExactly call contract available := by
  unfold suppliedSecrets at hsupplied
  unfold expectedSecrets SpelledExactly
  split at hsupplied
  next bindings hdistinct _ =>
    obtain ⟨hbound, hother⟩ := supplyBindings_get hdistinct hsupplied
    have hexpected {target source : String} : (OrderedMap.ofList (bindings.map fun binding =>
          (binding.target, binding.source))).get target = some source ↔
        ∃ binding ∈ bindings, binding.target = target ∧ binding.source = source := by
      rw [OrderedMap.get_ofList]
      · simp
      · simpa [Function.comp_def] using hdistinct
    constructor
    · intro heq binding hbinding
      obtain ⟨source, hsource, hget⟩ := hbound binding hbinding
      rw [← heq, hexpected] at hget
      obtain ⟨same, hsame, htarget, rfl⟩ := hget
      obtain rfl : same = binding := List.inj_on_of_nodup_map hdistinct hsame hbinding htarget
      exact hsource
    · intro hexact
      ext target source
      rw [hexpected]
      constructor
      · rintro ⟨binding, hbinding, rfl, rfl⟩
        obtain ⟨source, hsource, hget⟩ := hbound binding hbinding
        rw [hexact binding hbinding] at hsource
        rw [hget, ← hsource]
      · intro hget
        by_cases htarget : target ∈ bindings.map ReusableSecretBinding.target
        · obtain ⟨binding, hbinding, rfl⟩ := List.mem_map.mp htarget
          obtain ⟨found, hfound, hsame⟩ := hbound binding hbinding
          rw [hget] at hsame
          rw [hexact binding hbinding] at hfound
          exact ⟨binding, hbinding, rfl, Option.some.inj (hfound.trans hsame.symm)⟩
        · rw [hother target htarget] at hget
          cases hget
  next =>
    cases hsupplied
    constructor
    · intro heq definition hdefinition source hsource
      by_contra hrenamed
      have hbound := inheritDefinitions_bound hdefinition hsource hrenamed
        (inheritedNames available)
      rw [← heq, get_inheritedNames] at hbound
      split at hbound
      next => exact hrenamed (Option.some.inj hbound).symm
      next => cases hbound
    · intro hexact
      exact (inheritDefinitions_exact hexact).symm

end Agreement

/-- The runtime accepts the admitted edges, forwards for each of them the
caller's binding of its source, and forwards nothing else. -/
def ForwardsExactly (edges : List ExpandedReusableSecret)
    (call : ReusableWorkflowInvocation) (secrets : OrderedMap String β) :
    Prop :=
  ∃ forwarded, forwardedSecrets edges call secrets = .ok forwarded ∧ (∀ edge ∈ edges, ∃ binding,
        secrets.get edge.source = some binding ∧ forwarded.get edge.target = some binding) ∧
      ∀ target binding, forwarded.get target = some binding → ∃ edge ∈ edges, edge.target = target ∧
          secrets.get edge.source = some binding

/-- A caller's secrets, forwarded from the root through a chain of admitted
calls.  The relation tells which root name each forwarded name stands for. -/
inductive ForwardedFrom (root : OrderedMap String β) :
    OrderedMap String β → (String → String → Prop) → Prop
  | root : ForwardedFrom root root Eq
  | call {secrets next : OrderedMap String β}
      {standsFor : String → String → Prop}
      {call : ReusableWorkflowInvocation}
      {contract : WorkflowInvocationContract}
      {edges : List ExpandedReusableSecret}
      (before : ForwardedFrom root secrets standsFor)
      (admitted : validateSecrets call contract secrets.keys = .ok edges)
      (forwarded : forwardedSecrets edges call secrets = .ok next) :
      ForwardedFrom root next fun origin target =>
        ∃ edge ∈ edges, edge.target = target ∧ standsFor origin edge.source

section Runtime

variable {call : ReusableWorkflowInvocation}
variable {contract : WorkflowInvocationContract}
variable {secrets : OrderedMap String β}
variable {edges : List ExpandedReusableSecret}

theorem validateSecrets_eq_ok {available : OrderedSet String}
    (hvalid : validateSecrets call contract available = .ok edges) :
    ∃ supplied, suppliedSecrets call contract available = .ok supplied ∧
      edges = secretEdges supplied := by
  simp only [validateSecrets, bind_eq_ok, pure_eq_ok] at hvalid
  obtain ⟨supplied, hsupplied, _, _, rfl⟩ := hvalid
  exact ⟨supplied, hsupplied, rfl⟩

theorem expected_eq_iff {expected supplied : SuppliedSecrets} :
    ¬(expected.entries.length ≠ (secretEdges supplied).length ∨ ∃ edge ∈ secretEdges supplied,
          expected.get edge.target ≠ some edge.source) ↔
      expected = supplied := by
  simp only [secretEdges, List.length_map, List.mem_map,
    exists_exists_and_eq_and, not_or, not_not, not_exists, not_and]
  constructor
  · rintro ⟨hlength, hentries⟩
    exact OrderedMap.eq_of_length_eq hlength hentries
  · rintro rfl
    exact ⟨rfl, fun entry hentry => OrderedMap.get_eq_some_iff.mpr hentry⟩

theorem forwardedSecrets_get {next : OrderedMap String β}
    (hforwarded : forwardedSecrets edges call secrets = .ok next)
    (hdistinct : (edges.map ExpandedReusableSecret.target).Nodup)
    {target : String} {binding : β} :
    next.get target = some binding ↔ ∃ edge ∈ edges, edge.target = target ∧
        secrets.get edge.source = some binding := by
  simp only [forwardedSecrets, bind_eq_ok, pure_eq_ok] at hforwarded
  obtain ⟨_, _, pairs, hpairs, rfl⟩ := hforwarded
  have hmem {pair : String × β} :
      pair ∈ pairs ↔ ∃ edge ∈ edges, edge.target = pair.1 ∧
        secrets.get edge.source = some pair.2 := by
    rw [mem_of_mapM_eq_ok hpairs]
    refine exists_congr fun edge => and_congr_right fun _ => ?_
    simp only [bind_eq_ok, okOr_eq_ok, pure_eq_ok]
    obtain ⟨name, value⟩ := pair
    simp only [Prod.mk.injEq]
    constructor
    · rintro ⟨_, hget, rfl, rfl⟩
      exact ⟨rfl, hget⟩
    · rintro ⟨rfl, hget⟩
      exact ⟨value, hget, rfl, rfl⟩
  have htargets : List.Forall₂ (fun edge target => edge.target = target)
      edges (edges.map ExpandedReusableSecret.target) := by
    rw [List.forall₂_map_right_iff, List.forall₂_same]
    exact fun _ _ => rfl
  have hpaired : List.Forall₂ (fun (pair : String × β) target =>
      pair.1 = target) pairs (edges.map ExpandedReusableSecret.target) := by
    refine mapM_relates ?_ htargets hpairs
    rintro edge _ pair rfl hpair
    simp only [bind_eq_ok, pure_eq_ok] at hpair
    obtain ⟨_, _, rfl⟩ := hpair
    rfl
  have hnames : pairs.map Prod.fst = edges.map ExpandedReusableSecret.target := by
    rw [← List.forall₂_eq_eq_eq, List.forall₂_map_left_iff]
    exact hpaired
  rw [OrderedMap.get_ofList (hnames ▸ hdistinct), hmem]

theorem secretEdges_targets (supplied : SuppliedSecrets) :
    ((secretEdges supplied).map ExpandedReusableSecret.target).Nodup := by
  simpa [secretEdges, Function.comp_def] using supplied.keys_nodup

theorem forwardsExactly_iff (hvalid : validateSecrets call contract secrets.keys = .ok edges) :
    ForwardsExactly edges call secrets ↔ SpelledExactly call contract secrets.keys := by
  obtain ⟨supplied, hsupplied, rfl⟩ := validateSecrets_eq_ok hvalid
  rw [← expectedSecrets_eq_iff hsupplied]
  constructor
  · rintro ⟨forwarded, hforwarded, -⟩
    simp only [forwardedSecrets, bind_eq_ok, rejectIf_eq_ok] at hforwarded
    obtain ⟨_, hexpected, _⟩ := hforwarded
    exact expected_eq_iff.mp hexpected
  · intro hexpected
    have hbound : ∀ edge ∈ secretEdges supplied,
        ∃ binding, secrets.get edge.source = some binding := by
      intro edge hedge
      obtain ⟨entry, hentry, rfl⟩ := List.mem_map.mp hedge
      exact OrderedMap.mem_keys.mp (suppliedSecrets_available hsupplied
        (OrderedMap.get_eq_some_iff.mpr hentry))
    obtain ⟨pairs, hpairs⟩ : ∃ pairs, (secretEdges supplied).mapM (fun edge => do
          let binding ← okOr (secrets.get edge.source) ReusableWorkflowRuntimeError.invalidEvidence
          return (edge.target, binding)) = .ok pairs := by
      apply exists_mapM_eq_ok
      intro edge hedge
      obtain ⟨binding, hbinding⟩ := hbound edge hedge
      refine ⟨(edge.target, binding), ?_⟩
      simp [hbinding]
    have hforwarded : forwardedSecrets (secretEdges supplied) call secrets =
        .ok (.ofList pairs) := by
      simp only [forwardedSecrets, bind_eq_ok, rejectIf_eq_ok, pure_eq_ok]
      exact ⟨(), expected_eq_iff.mpr hexpected, pairs, hpairs, rfl⟩
    have hget {target : String} {binding : β} :
        (OrderedMap.ofList pairs).get target = some binding ↔
          ∃ edge ∈ secretEdges supplied, edge.target = target ∧
            secrets.get edge.source = some binding :=
      forwardedSecrets_get hforwarded (secretEdges_targets supplied)
    refine ⟨_, hforwarded, ?_, fun _ _ => hget.mp⟩
    intro edge hedge
    obtain ⟨binding, hbinding⟩ := hbound edge hedge
    exact ⟨binding, hbinding, hget.mpr ⟨edge, hedge, rfl, hbinding⟩⟩

end Runtime

theorem ForwardedFrom.get_root {root secrets : OrderedMap String β}
    {standsFor : String → String → Prop} (hchain : ForwardedFrom root secrets standsFor)
    {binding : β} (hget : secrets.get name = some binding) :
    ∃ origin, standsFor origin name ∧ root.get origin = some binding := by
  induction hchain generalizing name with
  | root => exact ⟨name, rfl, hget⟩
  | call before admitted forwarded ih =>
    obtain ⟨supplied, _, rfl⟩ := validateSecrets_eq_ok admitted
    rw [forwardedSecrets_get forwarded (secretEdges_targets supplied)] at hget
    obtain ⟨edge, hedge, htarget, hsource⟩ := hget
    obtain ⟨origin, hstands, horigin⟩ := ih hsource
    exact ⟨origin, ⟨edge, hedge, htarget, hstands⟩, horigin⟩

/-- Admitted edges are forwarded exactly when the names are spelled as the
caller spells them, and along any chain of forwarded calls every visible
secret is one of the root's, reached over admitted edges. -/
theorem secretForwarding_iff :
    (∀ (call : ReusableWorkflowInvocation)
      (contract : WorkflowInvocationContract) (secrets : OrderedMap String β)
      (edges : List ExpandedReusableSecret),
      validateSecrets call contract secrets.keys = .ok edges → (ForwardsExactly edges call secrets ↔
          SpelledExactly call contract secrets.keys)) ∧
    ∀ (root secrets : OrderedMap String β) (standsFor : String → String → Prop),
      ForwardedFrom root secrets standsFor → ∀ name binding, secrets.get name = some binding →
          ∃ origin, standsFor origin name ∧ root.get origin = some binding :=
  ⟨fun _ _ _ _ hvalid => forwardsExactly_iff hvalid,
    fun _ _ _ hchain _ _ hget => hchain.get_root hget⟩

namespace SecretSample

def contract (key : String) : WorkflowInvocationContract :=
  { inputs := []
    secrets := [⟨key, true⟩]
    outputs := []
    inputsDistinct := by simp
    secretsDistinct := by simp
    outputsDistinct := by simp }

def mappingCall (source : String) : ReusableWorkflowInvocation :=
  { reference := "./.github/workflows/deploy.yml"
    inputs := []
    secrets := .mapping [⟨"TOKEN", source⟩] (by simp)
    inputsDistinct := by simp }

def inheritCall : ReusableWorkflowInvocation :=
  { reference := "./.github/workflows/deploy.yml"
    inputs := []
    secrets := .inherit
    inputsDistinct := by simp }

def secrets : OrderedMap String Nat :=
  .ofList [("TOKEN", 7)]

end SecretSample

open SecretSample

/-- A mapping which writes the caller's name in lower case, and a contract
which inherits it in lower case, are admitted and refused by the runtime. -/
theorem secretForwarding_spelling_refused :
    (validateSecrets (mappingCall "token")
        (contract "TOKEN") secrets.keys = .ok [⟨"TOKEN", "TOKEN"⟩] ∧
      forwardedSecrets [⟨"TOKEN", "TOKEN"⟩]
        (mappingCall "token") secrets = .error .invalidEvidence) ∧
    validateSecrets inheritCall
        (contract "token") secrets.keys = .ok [⟨"token", "TOKEN"⟩] ∧
      forwardedSecrets [⟨"token", "TOKEN"⟩]
        inheritCall secrets = .error .invalidEvidence := by
  decide +kernel

theorem secretForwarding_iff_mapping :
    ForwardsExactly [⟨"TOKEN", "TOKEN"⟩] (mappingCall "TOKEN")
      secrets := by
  apply (secretForwarding_iff.1 (mappingCall "TOKEN")
    (contract "TOKEN") secrets _
    (by decide +kernel)).mpr
  exact List.forall_mem_singleton.mpr (by decide +kernel)

end AutomataCi
