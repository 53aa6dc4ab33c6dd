import AutomataCi.OrderedMap
import AutomataCi.WorkflowPlans
import Mathlib.Order.Bounds.Basic

/-!
# Permission resolution

The permissions of a job are resolved in three steps.  The repository policy
expands a shorthand to explicit grants, the ceiling of the reusable workflow
call lowers each grant, and the trust of the run lowers it again.  Every step
is checked against a closed catalog in which a scope need not have every
level.

The file compares the result with its purpose: each requested scope gets the
greatest level which the catalog has for it and which no bound exceeds.  The
comparison holds exactly when the ceiling does not lower a write-only scope to
a level which the catalog lacks.
-/

namespace AutomataCi

open GuardedResult

/-! ## Levels -/

namespace PermissionLevel

def rank : PermissionLevel → Nat
  | .none => 0
  | .read => 1
  | .write => 2

theorem rank_injective : Function.Injective rank := by
  intro left right hrank
  cases left <;> cases right <;> simp_all [rank]

instance : LinearOrder PermissionLevel :=
  LinearOrder.lift' rank rank_injective

theorem none_le (level : PermissionLevel) : .none ≤ level := by
  cases level <;> decide

theorem le_write (level : PermissionLevel) : level ≤ .write := by
  cases level <;> decide

end PermissionLevel

def minimumPermission : PermissionLevel → PermissionLevel → PermissionLevel
  | .none, _ => .none
  | _, .none => .none
  | .read, _ => .read
  | _, .read => .read
  | .write, .write => .write

theorem minimumPermission_eq_min (left right : PermissionLevel) :
    minimumPermission left right = min left right := by
  cases left <;> cases right <;> rfl

/-! ## The catalog -/

structure ActionsWorkflowPermission where
  name : String
  (allowsRead allowsWrite : Bool)
  deriving DecidableEq, Repr

def actionsWorkflowPermissions : List ActionsWorkflowPermission :=
  [⟨"actions", true, true⟩, ⟨"artifact-metadata", true, true⟩, ⟨"attestations", true, true⟩,
    ⟨"checks", true, true⟩,
    ⟨"code-quality", true, true⟩,
    ⟨"contents", true, true⟩,
    ⟨"deployments", true, true⟩,
    ⟨"discussions", true, true⟩,
    ⟨"id-token", false, true⟩,
    ⟨"issues", true, true⟩,
    ⟨"models", true, false⟩,
    ⟨"packages", true, true⟩,
    ⟨"pages", true, true⟩,
    ⟨"pull-requests", true, true⟩,
    ⟨"security-events", true, true⟩,
    ⟨"statuses", true, true⟩,
    ⟨"vulnerability-alerts", true, false⟩]

def actionsWorkflowPermission (name : String) : Option ActionsWorkflowPermission :=
  actionsWorkflowPermissions.find? fun permission => permission.name = name

namespace ActionsWorkflowPermission

def allows (self : ActionsWorkflowPermission) : PermissionLevel → Bool
  | .none => true
  | .read => self.allowsRead
  | .write => self.allowsWrite

end ActionsWorkflowPermission

def catalogAllows (name : String) (level : PermissionLevel) : Bool :=
  (actionsWorkflowPermission name).any fun permission =>
    permission.allows level

/-! ## The repository policy -/

abbrev PermissionMap :=
  OrderedMap String PermissionLevel

def catalogReadAll : PermissionMap :=
  .ofList ((actionsWorkflowPermissions.filter
    ActionsWorkflowPermission.allowsRead).map fun permission =>
      (permission.name, .read))

def catalogWriteAll : PermissionMap :=
  .ofList (actionsWorkflowPermissions.filterMap fun permission =>
    if permission.allowsWrite then some (permission.name, .write)
    else if permission.allowsRead then some (permission.name, .read)
    else none)

def restrictedProviderDefault : PermissionMap :=
  .ofList [("contents", .read), ("packages", .read)]

def matchesProviderDefault (providerDefault : PermissionMap) : Bool :=
  decide (providerDefault = restrictedProviderDefault ∨ providerDefault = catalogWriteAll)

/-- A map which names only scopes and levels of the catalog. -/
def PermissionsAllowed (permissions : PermissionMap) : Prop :=
  ∀ entry ∈ permissions.entries, catalogAllows entry.1 entry.2 = true

instance (permissions : PermissionMap) : Decidable (PermissionsAllowed permissions) := by
  unfold PermissionsAllowed
  infer_instance

structure WorkflowPermissionPolicy where
  (providerDefault readAll writeAll : PermissionMap)
  providerDefaultMatches : matchesProviderDefault providerDefault = true
  readAllCatalog : readAll = catalogReadAll
  writeAllCatalog : writeAll = catalogWriteAll
  providerDefaultAllowed : PermissionsAllowed providerDefault
  readAllAllowed : PermissionsAllowed readAll
  writeAllAllowed : PermissionsAllowed writeAll

inductive JobPermissionRequest where
  | providerDefault
  | readAll
  | writeAll
  | mapping (grants : List PermissionGrant)
  deriving DecidableEq, Repr

/-- An explicit mapping, sorted into canonical name order. -/
def JobPermissionRequest.ofGrants (grants : List PermissionGrant) : JobPermissionRequest :=
  .mapping (KeyedList.sortBy PermissionGrant.name grants)

namespace WorkflowPermissionPolicy

def expand (permissions : PermissionMap) : JobPermissionRequest :=
  .ofGrants (permissions.entries.map fun entry => ⟨entry.1, entry.2⟩)

def resolve (self : WorkflowPermissionPolicy) : JobPermissionRequest → JobPermissionRequest
  | .providerDefault => expand self.providerDefault
  | .readAll => expand self.readAll
  | .writeAll => expand self.writeAll
  | .mapping grants => .mapping grants

end WorkflowPermissionPolicy

/-! ## Ceilings -/

structure ReusableWorkflowPermissionSnapshot where
  defaultLevel : PermissionLevel
  grants : PermissionMap
  deriving DecidableEq

namespace ReusableWorkflowPermissionSnapshot

def level (self : ReusableWorkflowPermissionSnapshot) (name : String) : PermissionLevel :=
  (self.grants.get name).getD self.defaultLevel

end ReusableWorkflowPermissionSnapshot

inductive TrustPermissionAuthority where
  | requested | readOnly | denyAll
  deriving DecidableEq, Repr

inductive LogicalJobProjectionError where
  | invalidPermissionRequest | unrepresentablePermissionCeiling | unrepresentableTrustCeiling
  deriving DecidableEq, Repr

def sourcePermissionRequest : Option WorkflowPermissions → JobPermissionRequest
  | none => .providerDefault
  | some .readAll => .readAll
  | some .writeAll => .writeAll
  | some (.mapping grants) => .ofGrants grants

def validateResolvedPermissionRequest : JobPermissionRequest → Except LogicalJobProjectionError Unit
  | .mapping grants =>
    grants.forM fun grant =>
      match actionsWorkflowPermission grant.name with
      | none => .error .invalidPermissionRequest
      | some permission =>
        rejectIf (permission.allows grant.level = false) .invalidPermissionRequest
  | _ => .error .invalidPermissionRequest

def reduceGrant (ceiling : ReusableWorkflowPermissionSnapshot)
    (grant : PermissionGrant) : Option PermissionGrant :=
  let level := minimumPermission grant.level (ceiling.level grant.name)
  if level ≠ .none then some ⟨grant.name, level⟩ else none

def reducePermissionRequest (request : JobPermissionRequest)
    (ceiling : ReusableWorkflowPermissionSnapshot) :
    Except LogicalJobProjectionError JobPermissionRequest :=
  match request with
  | .mapping grants => .ok (.ofGrants (grants.filterMap (reduceGrant ceiling)))
  | _ => .error .unrepresentablePermissionCeiling

/-- Lower one grant to read, and drop it when the scope has no such level. -/
def reduceGrantToRead (grant : PermissionGrant) : Option PermissionGrant :=
  match actionsWorkflowPermission grant.name with
  | none => none
  | some permission =>
    match grant.level with
    | .read => some grant
    | .write => if permission.allowsRead then some ⟨grant.name, .read⟩ else none
    | .none => none

def reducePermissionRequestForTrust (request : JobPermissionRequest) :
    TrustPermissionAuthority → Except LogicalJobProjectionError JobPermissionRequest
  | .requested => .ok request
  | .denyAll => .ok (.ofGrants [])
  | .readOnly =>
    match request with
    | .mapping grants => .ok (.ofGrants (grants.filterMap reduceGrantToRead))
    | _ => .error .unrepresentableTrustCeiling

def reduceToCeiling (request : JobPermissionRequest) : Option ReusableWorkflowPermissionSnapshot →
      Except LogicalJobProjectionError JobPermissionRequest
  | none => .ok request
  | some ceiling => do
      let reduced ← reducePermissionRequest request ceiling
      validateResolvedPermissionRequest reduced
      return reduced

def resolvedPermissionRequest (request : Option WorkflowPermissions)
    (permissionPolicy : WorkflowPermissionPolicy)
    (ceiling : Option ReusableWorkflowPermissionSnapshot)
    (trustAuthority : TrustPermissionAuthority) :
    Except LogicalJobProjectionError JobPermissionRequest := do
  let resolved := permissionPolicy.resolve (sourcePermissionRequest request)
  validateResolvedPermissionRequest resolved
  let reduced ← reduceToCeiling resolved ceiling
  let result ← reducePermissionRequestForTrust reduced trustAuthority
  validateResolvedPermissionRequest result
  return result

/-! ## What resolution is for -/

def JobPermissionRequest.grants : JobPermissionRequest → List PermissionGrant
  | .mapping grants => grants
  | _ => []

def requestedGrants (request : Option WorkflowPermissions)
    (permissionPolicy : WorkflowPermissionPolicy) : List PermissionGrant :=
  (permissionPolicy.resolve (sourcePermissionRequest request)).grants

def ceilingLevel (ceiling : Option ReusableWorkflowPermissionSnapshot)
    (name : String) : PermissionLevel :=
  match ceiling with
  | none => .write
  | some snapshot => snapshot.level name

def TrustPermissionAuthority.level : TrustPermissionAuthority → PermissionLevel
  | .requested => .write
  | .readOnly => .read
  | .denyAll => .none

/-- The levels which the catalog has for a scope and no bound exceeds. -/
def permittedLevels (ceiling : Option ReusableWorkflowPermissionSnapshot)
    (trustAuthority : TrustPermissionAuthority) (grant : PermissionGrant) :
    Set PermissionLevel :=
  { level |
    catalogAllows grant.name level = true ∧ level ≤ grant.level ∧
      level ≤ ceilingLevel ceiling grant.name ∧
      level ≤ trustAuthority.level }

/-- Each requested scope has its greatest permitted level, and no other scope
appears. -/
structure GrantsGreatest (requested : List PermissionGrant)
    (ceiling : Option ReusableWorkflowPermissionSnapshot)
    (trustAuthority : TrustPermissionAuthority)
    (grants : List PermissionGrant) : Prop where
  granted : ∀ name level, level ≠ .none → (⟨name, level⟩ ∈ grants ↔
      ∃ grant ∈ requested, grant.name = name ∧
        IsGreatest (permittedLevels ceiling trustAuthority grant) level)
  within : ∀ grant ∈ grants, grant.name ∈ requested.map PermissionGrant.name
  distinct : (requested.map PermissionGrant.name).Nodup → (grants.map PermissionGrant.name).Nodup

def CeilingRepresentable (requested : List PermissionGrant)
    (ceiling : Option ReusableWorkflowPermissionSnapshot) : Prop :=
  ∀ snapshot ∈ ceiling, ∀ grant ∈ requested,
    ¬(grant.level = .write ∧ catalogAllows grant.name .read = false ∧
      snapshot.level grant.name = .read)

/-! ## One scope -/

namespace ActionsWorkflowPermission

def greatestLevel (self : ActionsWorkflowPermission) (bound : PermissionLevel) : PermissionLevel :=
  if .write ≤ bound ∧ self.allowsWrite = true then .write
  else if .read ≤ bound ∧ self.allowsRead = true then .read
  else .none

theorem isGreatest_greatestLevel (self : ActionsWorkflowPermission) (bound : PermissionLevel) :
    IsGreatest { level | self.allows level = true ∧ level ≤ bound } (self.greatestLevel bound) := by
  constructor
  · unfold greatestLevel
    split
    next hwrite => exact ⟨hwrite.2, hwrite.1⟩
    next =>
      split
      next hread => exact ⟨hread.2, hread.1⟩
      next => exact ⟨rfl, bound.none_le⟩
  · rintro level ⟨hallows, hlevel⟩
    unfold greatestLevel
    cases level with
    | none => exact PermissionLevel.none_le _
    | write => rw [if_pos ⟨hlevel, hallows⟩]
    | read =>
      split
      next => exact PermissionLevel.le_write _
      next => rw [if_pos ⟨hlevel, hallows⟩]

theorem greatestLevel_of_allows {self : ActionsWorkflowPermission}
    {bound : PermissionLevel} (hallows : self.allows bound = true) :
    self.greatestLevel bound = bound :=
  (self.isGreatest_greatestLevel bound).unique ⟨⟨hallows, le_rfl⟩, fun _ hlevel => hlevel.2⟩

end ActionsWorkflowPermission

theorem catalogAllows_iff {name : String} {level : PermissionLevel} :
    catalogAllows name level = true ↔
      ∃ permission, actionsWorkflowPermission name = some permission ∧
        permission.allows level = true := by
  simp [catalogAllows, Option.any_eq_true]

def ceilingStep (ceiling : Option ReusableWorkflowPermissionSnapshot)
    (grant : PermissionGrant) : Option PermissionGrant :=
  match ceiling with
  | none => some grant
  | some snapshot => reduceGrant snapshot grant

def trustStep (trustAuthority : TrustPermissionAuthority)
    (grant : PermissionGrant) : Option PermissionGrant :=
  match trustAuthority with
  | .requested => some grant
  | .readOnly => reduceGrantToRead grant
  | .denyAll => none

section Scope

variable {ceiling : Option ReusableWorkflowPermissionSnapshot}
variable {trustAuthority : TrustPermissionAuthority}
variable {grant lowered : PermissionGrant}

theorem reduceGrant_eq_some {snapshot : ReusableWorkflowPermissionSnapshot} :
    reduceGrant snapshot grant = some lowered ↔ lowered.name = grant.name ∧ lowered.level ≠ .none ∧
        lowered.level = min grant.level (snapshot.level grant.name) := by
  obtain ⟨name, level⟩ := lowered
  simp only [reduceGrant, minimumPermission_eq_min, ne_eq, ite_not,
    Option.ite_none_left_eq_some, Option.some.injEq, PermissionGrant.mk.injEq]
  constructor
  · rintro ⟨hlevel, rfl, rfl⟩
    exact ⟨rfl, hlevel, rfl⟩
  · rintro ⟨rfl, hlevel, rfl⟩
    exact ⟨hlevel, rfl, rfl⟩

variable {permission : ActionsWorkflowPermission}

theorem reduceGrantToRead_eq_some
    (hpermission : actionsWorkflowPermission grant.name = some permission)
    (hallows : permission.allows grant.level = true) :
    reduceGrantToRead grant = some lowered ↔ lowered.name = grant.name ∧ lowered.level ≠ .none ∧
        lowered.level = permission.greatestLevel (min grant.level .read) := by
  obtain ⟨name, level⟩ := grant
  obtain ⟨loweredName, loweredLevel⟩ := lowered
  simp only [reduceGrantToRead, hpermission]
  cases level with
  | none =>
    have hgreatest : permission.greatestLevel (min .none .read) = .none :=
      ActionsWorkflowPermission.greatestLevel_of_allows rfl
    simp only [hgreatest, reduceCtorEq, ne_eq, false_iff, not_and]
    tauto
  | read =>
    have hgreatest : permission.greatestLevel (min .read .read) = .read :=
      ActionsWorkflowPermission.greatestLevel_of_allows hallows
    rw [hgreatest]
    grind
  | write =>
    have hbound : min PermissionLevel.write .read = .read := rfl
    rw [hbound]
    cases hread : permission.allowsRead with
    | true =>
      have hgreatest : permission.greatestLevel .read = .read :=
        ActionsWorkflowPermission.greatestLevel_of_allows hread
      rw [hgreatest]
      grind
    | false =>
      have hgreatest : permission.greatestLevel .read = .none := by
        have hwrite : ¬PermissionLevel.write ≤ .read := by decide
        simp [ActionsWorkflowPermission.greatestLevel, hread, hwrite]
      rw [hgreatest]
      grind

theorem trustStep_eq_some (hpermission : actionsWorkflowPermission grant.name = some permission)
    (hallows : permission.allows grant.level = true) (hlevel : lowered.level ≠ .none) :
    trustStep trustAuthority grant = some lowered ↔ lowered.name = grant.name ∧ lowered.level =
          permission.greatestLevel (min grant.level trustAuthority.level) := by
  obtain ⟨name, level⟩ := grant
  obtain ⟨loweredName, loweredLevel⟩ := lowered
  cases trustAuthority with
  | requested =>
    have hgreatest : permission.greatestLevel (min level .write) = level := by
      rw [min_eq_left level.le_write]
      exact ActionsWorkflowPermission.greatestLevel_of_allows hallows
    simp only [trustStep, TrustPermissionAuthority.level, hgreatest,
      Option.some.injEq, PermissionGrant.mk.injEq, eq_comm]
  | readOnly =>
    simp only [trustStep, TrustPermissionAuthority.level,
      reduceGrantToRead_eq_some hpermission hallows]
    tauto
  | denyAll =>
    have hgreatest : permission.greatestLevel (min level .none) = .none := by
      rw [min_eq_right level.none_le]
      exact ActionsWorkflowPermission.greatestLevel_of_allows rfl
    simp only [trustStep, TrustPermissionAuthority.level, hgreatest, reduceCtorEq, false_iff]
    tauto

theorem trustStep_name (hstep : trustStep trustAuthority grant = some lowered) :
    lowered.name = grant.name := by
  cases trustAuthority with
  | requested => rw [← Option.some.inj hstep]
  | denyAll => cases hstep
  | readOnly =>
    unfold trustStep reduceGrantToRead at hstep
    grind

theorem ceilingStep_name (hstep : ceilingStep ceiling grant = some lowered) :
    lowered.name = grant.name := by
  cases ceiling with
  | none => rw [← Option.some.inj hstep]
  | some => exact (reduceGrant_eq_some.mp hstep).1

theorem trustStep_allowed (hallowed : catalogAllows grant.name grant.level = true)
    (hstep : trustStep trustAuthority grant = some lowered) :
    catalogAllows lowered.name lowered.level = true := by
  obtain ⟨permission, hpermission, hallows⟩ := catalogAllows_iff.mp hallowed
  have hname := trustStep_name hstep
  by_cases hlevel : lowered.level = .none
  · rw [hlevel, hname]
    exact catalogAllows_iff.mpr ⟨permission, hpermission, rfl⟩
  · have hgreatest := ((trustStep_eq_some hpermission hallows hlevel).mp hstep).2
    rw [hgreatest, hname]
    exact catalogAllows_iff.mpr ⟨permission, hpermission,
      (permission.isGreatest_greatestLevel _).1.1⟩

/-- What a ceiling leaves of an allowed grant is allowed, unless it lowers a
write-only scope to read. -/
theorem ceilingStep_allowed_iff (hallowed : catalogAllows grant.name grant.level = true) :
    (∀ lowered, ceilingStep ceiling grant = some lowered →
      catalogAllows lowered.name lowered.level = true) ↔
    ∀ snapshot ∈ ceiling, ¬(grant.level = .write ∧ catalogAllows grant.name .read = false ∧
        snapshot.level grant.name = .read) := by
  cases ceiling with
  | none => simp [ceilingStep, hallowed]
  | some snapshot =>
    simp only [ceilingStep, Option.mem_some_iff, forall_eq']
    constructor
    · rintro hlowered ⟨hwrite, hread, hceiling⟩
      have hstep : reduceGrant snapshot grant = some ⟨grant.name, .read⟩ := by
        rw [reduceGrant_eq_some, hwrite, hceiling]
        exact ⟨rfl, nofun, rfl⟩
      exact Bool.false_ne_true (hread.symm.trans (hlowered _ hstep))
    · intro hrepresentable lowered hstep
      obtain ⟨hname, hnone, hlevel⟩ := reduceGrant_eq_some.mp hstep
      rw [hname, hlevel]
      rcases le_total grant.level (snapshot.level grant.name) with hle | hle
      · rw [min_eq_left hle]
        exact hallowed
      · rw [min_eq_right hle] at hlevel ⊢
        -- the only level strictly between none and a request is read
        by_cases hsame : snapshot.level grant.name = grant.level
        · rw [hsame]
          exact hallowed
        · have hread : snapshot.level grant.name = .read := by
            cases hceiling : snapshot.level grant.name with
            | none => exact absurd (hlevel.trans hceiling) hnone
            | read => rfl
            | write =>
              rw [hceiling] at hle hsame
              exact absurd (le_antisymm hle grant.level.le_write) hsame
          have hwrite : grant.level = .write := by
            cases hrequested : grant.level with
            | write => rfl
            | read => exact absurd (hread.trans hrequested.symm) hsame
            | none =>
              rw [hread, hrequested] at hle
              exact absurd hle (by decide)
          by_contra hdenied
          rw [hread, Bool.not_eq_true] at hdenied
          exact hrepresentable ⟨hwrite, hdenied, hread⟩

theorem ceilingStep_eq (ceiling : Option ReusableWorkflowPermissionSnapshot)
    (grant : PermissionGrant) :
    ceilingStep ceiling grant = some ⟨grant.name,
          min grant.level (ceilingLevel ceiling grant.name)⟩ ∨
      min grant.level (ceilingLevel ceiling grant.name) = .none ∧
        ceilingStep ceiling grant = none := by
  cases ceiling with
  | none =>
    left
    rw [ceilingLevel, min_eq_left grant.level.le_write]
    rfl
  | some snapshot =>
    by_cases hlevel :
        min grant.level (snapshot.level grant.name) = .none
    · right
      refine ⟨hlevel, ?_⟩
      simp [ceilingStep, reduceGrant, minimumPermission_eq_min, hlevel]
    · left
      exact reduceGrant_eq_some.mpr ⟨rfl, hlevel, rfl⟩

theorem steps_greatest (lowered : PermissionGrant)
    (hallowed : catalogAllows grant.name grant.level = true)
    (hceiling : ∀ lowered, ceilingStep ceiling grant = some lowered →
      catalogAllows lowered.name lowered.level = true)
    (hlevel : lowered.level ≠ .none) :
    (∃ middle, ceilingStep ceiling grant = some middle ∧
      trustStep trustAuthority middle = some lowered) ↔
    grant.name = lowered.name ∧ IsGreatest (permittedLevels ceiling trustAuthority grant)
        lowered.level := by
  obtain ⟨permission, hpermission, hallows⟩ := catalogAllows_iff.mp hallowed
  let bound := min grant.level (ceilingLevel ceiling grant.name)
  have hpermitted :
      permittedLevels ceiling trustAuthority grant = { level | permission.allows level = true ∧
          level ≤ min bound trustAuthority.level } := by
    ext level
    simp only [permittedLevels, catalogAllows, hpermission, Option.any_some,
      Set.mem_ofPred_eq, bound, le_min_iff, and_assoc]
  have hgreatest (level : PermissionLevel) :
      IsGreatest (permittedLevels ceiling trustAuthority grant) level ↔ level =
          permission.greatestLevel (min bound trustAuthority.level) := by
    rw [hpermitted]
    have hleast := permission.isGreatest_greatestLevel (min bound trustAuthority.level)
    exact ⟨fun hlevel => hlevel.unique hleast, fun hsame => hsame ▸ hleast⟩
  rw [hgreatest]
  rcases ceilingStep_eq ceiling grant with hstep | ⟨hnone, hstep⟩
  · obtain ⟨same, hsame, hmiddle⟩ := catalogAllows_iff.mp (hceiling _ hstep)
    obtain rfl : permission = same := Option.some.inj (hpermission.symm.trans hsame)
    simp only [hstep, Option.some.injEq, exists_eq_left']
    rw [trustStep_eq_some hsame hmiddle hlevel, eq_comm]
  · have hdropped : permission.greatestLevel (min bound trustAuthority.level) = .none := by
      have hbound : bound = .none := hnone
      rw [hbound, min_eq_left (PermissionLevel.none_le _)]
      exact ActionsWorkflowPermission.greatestLevel_of_allows rfl
    simp only [hstep, hdropped, reduceCtorEq, false_and, exists_false, false_iff, not_and]
    exact fun _ => hlevel

end Scope

/-! ## Whole requests -/

section Requests

variable {request : Option WorkflowPermissions}
variable {permissionPolicy : WorkflowPermissionPolicy}
variable {ceiling : Option ReusableWorkflowPermissionSnapshot}
variable {trustAuthority : TrustPermissionAuthority}

theorem validateResolvedPermissionRequest_eq_ok {grants : List PermissionGrant} :
    validateResolvedPermissionRequest (.mapping grants) = .ok () ↔
      ∀ grant ∈ grants, catalogAllows grant.name grant.level = true := by
  rw [validateResolvedPermissionRequest, forM_eq_ok]
  refine forall₂_congr fun grant _ => ?_
  rw [catalogAllows]
  cases actionsWorkflowPermission grant.name with
  | none => simp
  | some => simp

theorem resolve_eq_mapping (request : Option WorkflowPermissions)
    (permissionPolicy : WorkflowPermissionPolicy) :
    permissionPolicy.resolve (sourcePermissionRequest request) =
      .mapping (requestedGrants request permissionPolicy) := by
  match request with
  | none => rfl
  | some .readAll => rfl
  | some .writeAll => rfl
  | some (.mapping _) => rfl

/-- Names and levels of an explicit mapping are those of the catalog. -/
def RequestAllowed (request : Option WorkflowPermissions) : Prop :=
  ∀ grants, request = some (.mapping grants) →
    ∀ grant ∈ grants, catalogAllows grant.name grant.level = true

theorem requestedGrants_allowed (hrequest : RequestAllowed request) :
    ∀ grant ∈ requestedGrants request permissionPolicy,
      catalogAllows grant.name grant.level = true := by
  have hexpanded {permissions : PermissionMap} (hpermissions : PermissionsAllowed permissions) :
      ∀ grant ∈ (WorkflowPermissionPolicy.expand permissions).grants,
        catalogAllows grant.name grant.level = true := by
    intro grant hgrant
    obtain ⟨entry, hentry, rfl⟩ := List.mem_map.mp (KeyedList.mem_sortBy.mp hgrant)
    exact hpermissions entry hentry
  match request with
  | none => exact hexpanded permissionPolicy.providerDefaultAllowed
  | some .readAll => exact hexpanded permissionPolicy.readAllAllowed
  | some .writeAll => exact hexpanded permissionPolicy.writeAllAllowed
  | some (.mapping grants) =>
    intro grant hgrant
    exact hrequest grants rfl grant (KeyedList.mem_sortBy.mp hgrant)

variable {requested : List PermissionGrant}

theorem ceilingRepresentable_iff
    (hrequested : ∀ grant ∈ requested, catalogAllows grant.name grant.level = true) :
    CeilingRepresentable requested ceiling ↔ ∀ lowered ∈ requested.filterMap (ceilingStep ceiling),
        catalogAllows lowered.name lowered.level = true := by
  simp only [List.mem_filterMap]
  constructor
  · rintro hrepresentable lowered ⟨grant, hgrant, hstep⟩
    exact (ceilingStep_allowed_iff (hrequested grant hgrant)).mpr
      (fun snapshot hsnapshot => hrepresentable snapshot hsnapshot grant hgrant)
      lowered hstep
  · intro hlowered snapshot hsnapshot grant hgrant
    exact (ceilingStep_allowed_iff (hrequested grant hgrant)).mp
      (fun lowered hstep => hlowered lowered ⟨grant, hgrant, hstep⟩)
      snapshot hsnapshot

theorem reduceToCeiling_mapping (hlowered : ∀ lowered ∈ requested.filterMap (ceilingStep ceiling),
      catalogAllows lowered.name lowered.level = true) :
    ∃ grants, reduceToCeiling (.mapping requested) ceiling = .ok (.mapping grants) ∧
        grants.Perm (requested.filterMap (ceilingStep ceiling)) := by
  cases ceiling with
  | none =>
    refine ⟨requested, rfl, ?_⟩
    have hsame : requested.filterMap (ceilingStep none) = requested := List.filterMap_some
    rw [hsame]
  | some snapshot =>
    have hperm : (KeyedList.sortBy PermissionGrant.name
        (requested.filterMap (reduceGrant snapshot))).Perm
        (requested.filterMap (reduceGrant snapshot)) :=
      KeyedList.perm_sortBy _
    refine ⟨_, ?_, hperm⟩
    simp only [reduceToCeiling, reducePermissionRequest, ok_bind,
      bind_eq_ok, pure_eq_ok, JobPermissionRequest.ofGrants]
    refine ⟨(), validateResolvedPermissionRequest_eq_ok.mpr ?_, trivial⟩
    intro lowered hmem
    exact hlowered lowered (hperm.mem_iff.mp hmem)

theorem reduceToCeiling_allowed {reduced : JobPermissionRequest}
    (hrequested : ∀ grant ∈ requested, catalogAllows grant.name grant.level = true)
    (hreduced : reduceToCeiling (.mapping requested) ceiling = .ok reduced) :
    ∀ lowered ∈ requested.filterMap (ceilingStep ceiling),
      catalogAllows lowered.name lowered.level = true := by
  cases ceiling with
  | none =>
    have hsame : requested.filterMap (ceilingStep none) = requested := List.filterMap_some
    rw [hsame]
    exact hrequested
  | some =>
    simp only [reduceToCeiling, reducePermissionRequest, ok_bind,
      bind_eq_ok, JobPermissionRequest.ofGrants] at hreduced
    obtain ⟨_, hvalid, _⟩ := hreduced
    intro lowered hmem
    exact validateResolvedPermissionRequest_eq_ok.mp hvalid lowered (KeyedList.mem_sortBy.mpr hmem)

theorem reducePermissionRequestForTrust_mapping (grants : List PermissionGrant)
    (trustAuthority : TrustPermissionAuthority) :
    ∃ lowered, reducePermissionRequestForTrust (.mapping grants) trustAuthority =
          .ok (.mapping lowered) ∧
        lowered.Perm (grants.filterMap (trustStep trustAuthority)) := by
  cases trustAuthority with
  | requested =>
    refine ⟨grants, rfl, ?_⟩
    have hsame : grants.filterMap (trustStep .requested) = grants := List.filterMap_some
    rw [hsame]
  | readOnly => exact ⟨_, rfl, KeyedList.perm_sortBy _⟩
  | denyAll =>
    refine ⟨[], rfl, ?_⟩
    have hempty : grants.filterMap (trustStep .denyAll) = [] := by
      simp [trustStep, List.filterMap_eq_nil_iff]
    rw [hempty]

theorem names_nodup_filterMap {step : PermissionGrant → Option PermissionGrant}
    (hstep : ∀ grant lowered, step grant = some lowered → lowered.name = grant.name)
    {before after : List PermissionGrant}
    (hafter : after.Perm (before.filterMap step))
    (hdistinct : (before.map PermissionGrant.name).Nodup) :
    (after.map PermissionGrant.name).Nodup := by
  rw [(hafter.map PermissionGrant.name).nodup_iff]
  apply List.Nodup.sublist _ hdistinct
  clear hafter hdistinct
  induction before with
  | nil => simp
  | cons grant rest ih =>
    rw [List.filterMap_cons, List.map_cons]
    cases hgrant : step grant with
    | none => exact ih.cons _
    | some lowered =>
      simp only [List.map_cons, hstep grant lowered hgrant]
      exact ih.cons_cons _

/-- A job gets the greatest permitted level of every requested scope exactly
when the ceiling lowers no write-only scope to read. -/
theorem resolvedPermissionRequest_greatest_iff (request : Option WorkflowPermissions)
    (permissionPolicy : WorkflowPermissionPolicy)
    (ceiling : Option ReusableWorkflowPermissionSnapshot)
    (trustAuthority : TrustPermissionAuthority)
    (hrequest : RequestAllowed request) :
    (∃ grants, resolvedPermissionRequest request permissionPolicy ceiling
          trustAuthority = .ok (.mapping grants) ∧
        GrantsGreatest (requestedGrants request permissionPolicy) ceiling trustAuthority grants) ↔
      CeilingRepresentable (requestedGrants request permissionPolicy) ceiling := by
  let requested := requestedGrants request permissionPolicy
  have hrequested : ∀ grant ∈ requested, catalogAllows grant.name grant.level = true :=
    requestedGrants_allowed hrequest
  rw [ceilingRepresentable_iff hrequested]
  constructor
  · rintro ⟨grants, hresolved, -⟩
    simp only [resolvedPermissionRequest, resolve_eq_mapping, bind_eq_ok] at hresolved
    obtain ⟨_, _, reduced, hreduced, _⟩ := hresolved
    exact reduceToCeiling_allowed hrequested hreduced
  · intro hlowered
    obtain ⟨middle, hreduced, hmiddle⟩ := reduceToCeiling_mapping hlowered
    obtain ⟨grants, htrusted, hgrants⟩ :=
      reducePermissionRequestForTrust_mapping middle trustAuthority
    have hmem (lowered : PermissionGrant) :
        lowered ∈ grants ↔ ∃ grant ∈ requested, ∃ between,
            ceilingStep ceiling grant = some between ∧
              trustStep trustAuthority between = some lowered := by
      rw [hgrants.mem_iff, List.mem_filterMap]
      simp only [hmiddle.mem_iff, List.mem_filterMap]
      tauto
    refine ⟨grants, ?_, ?_, ?_, ?_⟩
    · simp only [resolvedPermissionRequest, resolve_eq_mapping, bind_eq_ok, pure_eq_ok]
      refine ⟨(), validateResolvedPermissionRequest_eq_ok.mpr hrequested,
        _, hreduced, _, htrusted, (),
        validateResolvedPermissionRequest_eq_ok.mpr ?_, rfl⟩
      intro lowered hlow
      obtain ⟨grant, hgrant, between, hceiling, htrust⟩ := (hmem lowered).mp hlow
      exact trustStep_allowed (hlowered between (List.mem_filterMap.mpr ⟨grant, hgrant, hceiling⟩))
        htrust
    · intro name level hlevel
      rw [hmem]
      refine exists_congr fun grant => and_congr_right fun hgrant => ?_
      have hbetween : ∀ between, ceilingStep ceiling grant = some between →
          catalogAllows between.name between.level = true := by
        intro between hceiling
        exact hlowered between (List.mem_filterMap.mpr ⟨grant, hgrant, hceiling⟩)
      exact steps_greatest ⟨name, level⟩ (hrequested grant hgrant) hbetween hlevel
    · intro lowered hlow
      obtain ⟨grant, hgrant, between, hceiling, htrust⟩ := (hmem lowered).mp hlow
      rw [trustStep_name htrust, ceilingStep_name hceiling]
      exact List.mem_map_of_mem hgrant
    · intro hdistinct
      exact names_nodup_filterMap (fun _ _ => trustStep_name) hgrants
        (names_nodup_filterMap (fun _ _ => ceilingStep_name) hmiddle hdistinct)

end Requests

namespace PermissionSample

def policy : WorkflowPermissionPolicy where
  providerDefault := catalogWriteAll
  readAll := catalogReadAll
  writeAll := catalogWriteAll
  providerDefaultMatches := by decide +kernel
  readAllCatalog := rfl
  writeAllCatalog := rfl
  providerDefaultAllowed := by decide +kernel
  readAllAllowed := by decide +kernel
  writeAllAllowed := by decide +kernel

def readOnlyCaller : ReusableWorkflowPermissionSnapshot :=
  ⟨.read, .empty⟩

def tokenRequest : WorkflowPermissions :=
  .mapping [⟨"contents", .write⟩, ⟨"id-token", .write⟩]

def contentsRequest : WorkflowPermissions :=
  .mapping [⟨"contents", .write⟩]

end PermissionSample

open PermissionSample

/-- A job which asks for an identity token under a caller with read
permissions is refused, although leaving the token out was possible. -/
theorem resolvedPermissionRequest_identity_token_refused :
    RequestAllowed (some tokenRequest) ∧
      resolvedPermissionRequest (some tokenRequest)
        policy (some readOnlyCaller)
        .requested = .error .invalidPermissionRequest := by
  refine ⟨?_, by decide +kernel⟩
  rintro grants hgrants
  cases hgrants
  decide +kernel

theorem resolvedPermissionRequest_greatest_iff_contents :
    ∃ grants, resolvedPermissionRequest (some contentsRequest)
          policy (some readOnlyCaller)
          .requested = .ok (.mapping grants) ∧
        GrantsGreatest (requestedGrants (some contentsRequest)
            policy)
          (some readOnlyCaller) .requested grants := by
  have hrequest : RequestAllowed (some contentsRequest) := by
    rintro grants hgrants
    cases hgrants
    decide +kernel
  apply (resolvedPermissionRequest_greatest_iff _ _ _ _ hrequest).mpr
  intro snapshot hsnapshot
  cases hsnapshot
  decide +kernel

end AutomataCi
