import AutomataCi.PrefixCodes
import AutomataCi.ReusableExpansion

/-!
# The digest of an expansion

The digest of an expansion is taken over the run, the root invocation and
every field of every invocation, written one after the other: texts,
identities and digests as parts behind their length, lists behind their
length, optional identities behind a tag, and small numbers at their width.
Each writer below is a prefix code, so the bytes can be read back in one way
only.
-/

namespace AutomataCi

open GuardedResult PrefixCodes

/-- What the digest relies on: the hash function, and the JSON texts of the
input templates, which are absent when a template cannot be written and differ
for different templates. -/
structure DigestFunctions where
  sha256 : Bytes → Sha256Digest
  template : CompiledValueTemplate → Option Bytes
  default : InvocationInputDefault → Option Bytes
  template_injective : ∀ left right bytes, template left = some bytes →
    template right = some bytes → left = right
  default_injective : ∀ left right bytes, default left = some bytes →
    default right = some bytes → left = right

def textBytes (text : String) : Bytes :=
  text.toByteArray.data.toList

theorem textBytes_injective : Function.Injective textBytes := by
  intro left right hsame
  apply String.toByteArray_inj.mp
  exact ByteArray.ext (Array.toList_inj.mp hsame)

def hashText : PrefixCode String :=
  PrefixCode.part.comap textBytes textBytes_injective

def hashUuid : PrefixCode Uuid :=
  PrefixCode.part.comap (fun id => bigEndian 16 id.bits.toNat) (by
    rintro ⟨left⟩ ⟨right⟩ hsame
    have hbits := bigEndian_injective left.isLt right.isLt hsame
    exact congrArg Uuid.mk (BitVec.eq_of_toNat_eq hbits))

def hashDigest : PrefixCode Sha256Digest :=
  PrefixCode.part.comap (fun digest => bigEndian 32 digest.bits.toNat) (by
    rintro ⟨left⟩ ⟨right⟩ hsame
    have hbits := bigEndian_injective left.isLt right.isLt hsame
    exact congrArg Sha256Digest.mk (BitVec.eq_of_toNat_eq hbits))

def permissionName : PermissionLevel → String
  | .none => "none"
  | .read => "read"
  | .write => "write"

def inputTypeName : InvocationInputType → String
  | .boolean => "boolean"
  | .number => "number"
  | .string => "string"

def sensitivityName : OutputSensitivity → String
  | .publicOutput => "public"
  | .secretDerived => "secret_derived"

def hashLevel : PrefixCode PermissionLevel :=
  hashText.comap permissionName (by
    intro left right
    cases left <;> cases right <;> decide)

def hashInputType : PrefixCode InvocationInputType :=
  hashText.comap inputTypeName (by
    intro left right
    cases left <;> cases right <;> decide)

def hashSensitivity : PrefixCode OutputSensitivity :=
  hashText.comap sensitivityName (by
    intro left right
    cases left <;> cases right <;> decide)

def hashReusable : PrefixCode Bool :=
  (PrefixCode.number 1).comap Bool.toNat (by
    intro left right
    cases left <;> cases right <;> decide)

def hashPermissions : PrefixCode ReusableWorkflowPermissions :=
  (hashLevel.pair (hashText.pair hashLevel).counted).comap
    (fun permissions => (permissions.default, permissions.grants.entries)) (by
      rintro ⟨_, ⟨_, _⟩⟩ ⟨_, ⟨_, _⟩⟩ hsame
      cases hsame
      rfl)

def hashSecret : PrefixCode ExpandedReusableSecret :=
  (hashText.pair hashText).comap (fun secret => (secret.target, secret.source)) (by
      rintro ⟨_, _⟩ ⟨_, _⟩ hsame
      cases hsame
      rfl)

def hashOutput : PrefixCode ExpandedReusableOutput :=
  (hashText.pair hashSensitivity).comap (fun output => (output.key, output.sensitivity)) (by
      rintro ⟨_, _⟩ ⟨_, _⟩ hsame
      cases hsame
      rfl)

def hashCallerOutput : PrefixCode ExpandedReusableOutputMapping :=
  (hashText.pair (hashText.pair hashSensitivity)).comap
    (fun output => (output.parentKey, output.childKey, output.sensitivity)) (by
      rintro ⟨_, _, _⟩ ⟨_, _, _⟩ hsame
      cases hsame
      rfl)

def hashJob : PrefixCode ExpandedReusableJob :=
  (hashUuid.pair (hashText.pair ((PrefixCode.number 2).pair
    (hashReusable.pair hashUuid.counted)))).comap
    (fun job =>
      (job.id, job.key, job.sourceOrder, job.reusable, job.prerequisites)) (by
      rintro ⟨_, _, _, _, _⟩ ⟨_, _, _, _, _⟩ hsame
      cases hsame
      rfl)

inductive InputSourceKind where
  | caller | default | implicitDefault
  deriving DecidableEq, Repr

def InputSourceKind.name : InputSourceKind → String
  | .caller => "caller"
  | .default => "default"
  | .implicitDefault => "implicit"

def hashKind : PrefixCode InputSourceKind :=
  hashText.comap InputSourceKind.name (by
    intro left right
    cases left <;> cases right <;> decide)

theorem fits_hashKind (kind : InputSourceKind) : hashKind.fits kind := by
  change (textBytes kind.name).length < 2 ^ 64
  cases kind <;> decide +kernel

section Inputs

variable (functions : DigestFunctions)

def sourceText : ReusableInputBindingSource → Option Bytes
  | .caller value => functions.template value
  | .default value => functions.default value
  | .implicitDefault => some []

/-- The kind of a source is written first, and two of the kinds have a part
with the value. -/
def hashSource : PrefixCode ReusableInputBindingSource where
  encode := fun source =>
    match source with
    | .caller _ =>
      hashKind.encode .caller ++ PrefixCode.part.encode ((sourceText functions source).getD [])
    | .default _ =>
      hashKind.encode .default ++ PrefixCode.part.encode ((sourceText functions source).getD [])
    | .implicitDefault => hashKind.encode .implicitDefault
  fits := fun source =>
    ∃ bytes, sourceText functions source = some bytes ∧ bytes.length < 2 ^ 64
  separable := by
    rintro left right ⟨first, hfirst, hshort⟩ ⟨second, hsecond, hother⟩ after others hsame
    have htag {kind tag : InputSourceKind} {rest more : Bytes}
        (hsame : hashKind.encode kind ++ rest = hashKind.encode tag ++ more) :
        kind = tag ∧ rest = more :=
      hashKind.separable _ _ (fits_hashKind kind) (fits_hashKind tag) _ _ hsame
    cases left <;> cases right <;> simp only [List.append_assoc, hfirst, hsecond, Option.getD_some]
        at hsame <;>
      obtain ⟨hkind, hrest⟩ := htag hsame <;> cases hkind
    · obtain ⟨rfl, hafter⟩ := PrefixCode.part.separable _ _ hshort hother _ _ hrest
      rw [functions.template_injective _ _ _ hfirst hsecond]
      exact ⟨rfl, hafter⟩
    · obtain ⟨rfl, hafter⟩ := PrefixCode.part.separable _ _ hshort hother _ _ hrest
      rw [functions.default_injective _ _ _ hfirst hsecond]
      exact ⟨rfl, hafter⟩
    · exact ⟨rfl, hrest⟩

def hashInput : PrefixCode ExpandedReusableInput :=
  (hashText.pair (hashInputType.pair (hashSource functions))).comap
    (fun input => (input.target, input.inputType, input.source)) (by
      rintro ⟨_, _, _⟩ ⟨_, _, _⟩ hsame
      cases hsame
      rfl)

def hashInvocation : PrefixCode ReusableWorkflowInvocationExpansion :=
  (hashUuid.pair (hashUuid.optional.pair (hashUuid.optional.pair
    ((PrefixCode.number 2).pair (hashText.pair (hashDigest.pair
      (hashDigest.pair (hashPermissions.pair
        ((hashInput functions).counted.pair (hashSecret.counted.pair
          (hashOutput.counted.pair (hashCallerOutput.counted.pair hashJob.counted)))))))))))).comap
    (fun invocation =>
      (invocation.id, invocation.parentId, invocation.callerJobId,
        invocation.depth, invocation.workflowPath, invocation.sourceDigest,
        invocation.planDigest, invocation.permissions, invocation.inputs,
        invocation.secrets, invocation.outputs, invocation.callerOutputs,
        invocation.jobs)) (by
      rintro ⟨_, _, _, _, _, _, _, _, _, _, _, _, _⟩ ⟨_, _, _, _, _, _, _, _, _, _, _, _, _⟩ hsame
      cases hsame
      rfl)

def expansionDigestDomain : Bytes :=
  textBytes "automata.reusable-workflow.expansion.v1\x00"

def hashExpansion : PrefixCode (Uuid × Uuid × List ReusableWorkflowInvocationExpansion) :=
  hashUuid.pair (hashUuid.pair (hashInvocation functions).counted)

def expansionPreimage (runId rootId : Uuid)
    (invocations : List ReusableWorkflowInvocationExpansion) : Bytes :=
  expansionDigestDomain ++ (hashExpansion functions).encode (runId, rootId, invocations)

def expansionDigest (runId rootId : Uuid) (invocations : List ReusableWorkflowInvocationExpansion) :
    Except ReusableWorkflowExpansionError Sha256Digest := do
  rejectIf (∃ invocation ∈ invocations, ∃ input ∈ invocation.inputs,
      sourceText functions input.source = none)
    .planSerialization
  return functions.sha256 (expansionPreimage functions runId rootId invocations)

variable {functions}

theorem expansionDigest_eq_ok {runId rootId : Uuid}
    {invocations : List ReusableWorkflowInvocationExpansion} {digest : Sha256Digest}
    (hdigest : expansionDigest functions runId rootId invocations = .ok digest) :
    functions.sha256 (expansionPreimage functions runId rootId invocations) = digest := by
  simp only [expansionDigest, bind_eq_ok, pure_eq_ok] at hdigest
  obtain ⟨_, _, hdigest⟩ := hdigest
  exact hdigest

/-- Two expansions with one digest are equal in every field, unless their two
preimages are a collision of the hash function. -/
theorem expansion_eq_of_digest_eq (functions : DigestFunctions)
    (runId otherRunId rootId otherRootId : Uuid)
    (invocations others : List ReusableWorkflowInvocationExpansion)
    (digest : Sha256Digest)
    (hfits : (hashExpansion functions).fits (runId, rootId, invocations))
    (hother : (hashExpansion functions).fits (otherRunId, otherRootId, others))
    (hcollision : functions.sha256 (expansionPreimage functions runId rootId invocations) =
        functions.sha256 (expansionPreimage functions otherRunId otherRootId others) →
      expansionPreimage functions runId rootId invocations =
        expansionPreimage functions otherRunId otherRootId others)
    (hdigest : expansionDigest functions runId rootId invocations = .ok digest)
    (hsame : expansionDigest functions otherRunId otherRootId others = .ok digest) :
    runId = otherRunId ∧ rootId = otherRootId ∧ invocations = others := by
  have hpreimage := hcollision
    ((expansionDigest_eq_ok hdigest).trans (expansionDigest_eq_ok hsame).symm)
  unfold expansionPreimage at hpreimage
  have hencoded := List.append_cancel_left hpreimage
  obtain ⟨hvalues, -⟩ := (hashExpansion functions).separable _ _ hfits hother
    [] [] (congrArg (· ++ []) hencoded)
  simpa using hvalues

end Inputs

namespace DigestSample

/-- A polynomial in the bytes for a hash; only literal templates and text
defaults can be written. -/
def functions : DigestFunctions where
  sha256 := fun bytes => ⟨bytes.foldl
    (fun digest byte => digest * 257 + BitVec.ofNat 256 byte.toNat) 0⟩
  template
    | .literal value => some (textBytes value)
    | .expression _ _ => none
  default
    | .string value => some (textBytes value)
    | _ => none
  template_injective := by
    rintro (left | _) (right | _) bytes hleft hright <;> cases hleft
    · rw [textBytes_injective (Option.some.inj hright)]
    · cases hright
  default_injective := by
    rintro (_ | _ | left) (_ | _ | right) bytes hleft hright <;> cases hleft
    · cases hright
    · cases hright
    · rw [textBytes_injective (Option.some.inj hright)]

def invocation (input : ReusableInputBindingSource) (sensitivity : OutputSensitivity)
    (prerequisites : List Uuid) (target source : String) :
    ReusableWorkflowInvocationExpansion :=
  { id := ⟨1⟩
    parentId := none
    callerJobId := none
    depth := 0
    workflowPath := "ci.yml"
    sourceDigest := ⟨2⟩
    planDigest := ⟨3⟩
    permissions := ⟨.read, .empty⟩
    inputs := [⟨"version", .string, input⟩]
    secrets := [⟨target, source⟩]
    outputs := [⟨"image", sensitivity⟩]
    callerOutputs := [⟨"image", "image", sensitivity⟩]
    jobs := [⟨⟨4⟩, "build", 0, false, []⟩, ⟨⟨5⟩, "test", 1, false, prerequisites⟩] }

/-- Every two differ in an input, the outputs, a prerequisite or the boundary
between two texts. -/
def variants : List ReusableWorkflowInvocationExpansion :=
  [invocation (.caller (.literal "1")) .publicOutput [⟨4⟩] "ab" "c",
    invocation (.default (.string "1")) .publicOutput [⟨4⟩] "ab" "c",
    invocation .implicitDefault .publicOutput [⟨4⟩] "ab" "c",
    invocation .implicitDefault .secretDerived [⟨4⟩] "ab" "c",
    invocation .implicitDefault .publicOutput [] "ab" "c",
    invocation .implicitDefault .publicOutput [⟨4⟩] "a" "bc"]

theorem fits_variants : ∀ variant ∈ variants,
    (hashExpansion functions).fits (⟨7⟩, ⟨1⟩, [variant]) := by
  simp [variants, hashExpansion, hashInvocation, hashUuid, hashDigest, hashText, hashPermissions,
    hashLevel, hashSecret, hashInput, hashInputType, hashSource, hashOutput, hashCallerOutput,
    hashSensitivity, hashJob, hashReusable, sourceText, functions,
    PrefixCode.pair, PrefixCode.comap, PrefixCode.counted, PrefixCode.optional,
    PrefixCode.number, PrefixCode.part, length_bigEndian, invocation, OrderedMap.empty]
  decide +kernel

end DigestSample

open DigestSample

/-- Different expansions have different digests. -/
theorem expansion_digest_separates_texts :
    variants.Pairwise fun left right => expansionDigest functions ⟨7⟩ ⟨1⟩ [left] ≠
      expansionDigest functions ⟨7⟩ ⟨1⟩ [right] := by
  have hdistinct : variants.Pairwise fun left right => left ≠ right ∧
      (functions.sha256 (expansionPreimage functions ⟨7⟩ ⟨1⟩ [left]) =
        functions.sha256 (expansionPreimage functions ⟨7⟩ ⟨1⟩ [right]) →
      expansionPreimage functions ⟨7⟩ ⟨1⟩ [left] =
        expansionPreimage functions ⟨7⟩ ⟨1⟩ [right]) := by
    decide +kernel
  have hdigest : ∀ variant ∈ variants, expansionDigest functions ⟨7⟩ ⟨1⟩ [variant] =
      .ok (functions.sha256 (expansionPreimage functions ⟨7⟩ ⟨1⟩ [variant])) := by
    decide +kernel
  refine hdistinct.imp_of_mem ?_
  rintro left right hleft hright ⟨hne, hcollision⟩ hsame
  have hequal := expansion_eq_of_digest_eq functions ⟨7⟩ ⟨7⟩ ⟨1⟩ ⟨1⟩ _ _ _
    (fits_variants left hleft) (fits_variants right hright) hcollision
    (hsame.trans (hdigest right hright)) (hdigest right hright)
  exact hne (List.singleton_inj.mp hequal.2.2)

end AutomataCi
