import AutomataCi.RuntimeContexts

/-!
# Canonical context trees

A decoded context is written again as the message it came from exactly if that
message lists its nodes in post-order, which the decoder does not check.  The
encoder is described by the segment which it appends for some values: the
decoder builds the values from the segment, and taking them by their indices
leaves nothing of it.
-/

namespace AutomataCi.RuntimeContexts

open GuardedResult

/-! ## A value and its node -/

def ContextValue.children : ContextValue → List ContextValue
  | .array values => values
  | .object values => values.map Prod.snd
  | _ => []

def ContextValue.node (indices : List Nat) : ContextValue → ContextNode
  | .null => .null
  | .boolean value => .boolean value
  | .number bits => .number bits
  | .string value => .string value
  | .array _ => .array indices
  | .object values => .object ((values.map Prod.fst).zip indices)

theorem zip_keys {α β : Type} {entries : List (String × α)} {others : List β}
    (hlength : others.length = (entries.map Prod.snd).length) :
    ((entries.map Prod.fst).zip others).map Prod.fst = entries.map Prod.fst ∧
      ((entries.map Prod.fst).zip others).map Prod.snd = others := by
  have hlengths : (entries.map Prod.fst).length = others.length := by
    rw [hlength, List.length_map, List.length_map]
  exact ⟨List.map_fst_zip hlengths.le, List.map_snd_zip hlengths.ge⟩

theorem ContextValue.value_node (value : ContextValue) (indices : List Nat)
    (hlength : indices.length = value.children.length) :
    (value.node indices).children = indices ∧
      (value.node indices).value value.children = value := by
  cases value with
  | array values => exact ⟨rfl, rfl⟩
  | object values =>
    simp [ContextValue.node, ContextValue.children, ContextNode.children, ContextNode.value,
      zip_keys hlength, ← List.zip_of_prod rfl rfl]
  | _ => exact ⟨(List.length_eq_zero_iff.mp hlength).symm, rfl⟩

theorem ContextNode.node_value (node : ContextNode) (values : List ContextValue)
    (hlength : values.length = node.children.length) :
    (node.value values).children = values ∧ (node.value values).node node.children = node := by
  cases node with
  | array indices => exact ⟨rfl, rfl⟩
  | object entries =>
    simp [ContextValue.node, ContextValue.children, ContextNode.children, ContextNode.value,
      zip_keys hlength, ← List.zip_of_prod rfl rfl]
  | _ => exact ⟨(List.length_eq_zero_iff.mp hlength).symm, rfl⟩

theorem ContextValue.sizeOf_child_lt {value child : ContextValue}
    (hchild : child ∈ value.children) : sizeOf child < sizeOf value := by
  cases value with
  | array values =>
    have hlt : sizeOf child < sizeOf values := List.sizeOf_lt_of_mem hchild
    rw [ContextValue.array.sizeOf_spec]
    omega
  | object entries =>
    obtain ⟨⟨key, value⟩, hentry, rfl⟩ := List.mem_map.mp hchild
    have hlt := List.sizeOf_lt_of_mem hentry
    rw [Prod.mk.sizeOf_spec] at hlt
    rw [ContextValue.object.sizeOf_spec]
    change sizeOf value < _
    omega
  | _ => cases hchild

/-! ## The encoder -/

section Encoder

variable (nodes : ContextNodes)

theorem contextEntries_eq (entries : List (String × ContextValue)) :
    contextEntries entries nodes =
      ((contextValues (entries.map Prod.snd) nodes).1,
        (entries.map Prod.fst).zip (contextValues (entries.map Prod.snd) nodes).2) := by
  induction entries generalizing nodes with
  | nil => rfl
  | cons entry rest ih => simp [contextEntries, contextValues, ih]

theorem contextValue_eq (value : ContextValue) :
    contextValue value nodes =
      ((contextValues value.children nodes).1 ++
        [some (value.node (contextValues value.children nodes).2)],
        (contextValues value.children nodes).1.length) := by
  cases value with
  | object entries =>
    simp [contextValue, contextEntries_eq, ContextValue.children, ContextValue.node]
  | _ => rfl

theorem contextValues_append (front back : List ContextValue) :
    contextValues (front ++ back) nodes =
      ((contextValues back (contextValues front nodes).1).1,
        (contextValues front nodes).2 ++ (contextValues back (contextValues front nodes).1).2) := by
  induction front generalizing nodes with
  | nil => rfl
  | cons value rest ih => simp [contextValues, ih]

theorem length_contextValues (values : List ContextValue) :
    (contextValues values nodes).2.length = values.length := by
  induction values generalizing nodes with
  | nil => rfl
  | cons value rest ih => simp [contextValues, ih]

end Encoder

/-! ## Post-order -/

/-- The nodes list the subtrees below the roots in post-order: a node comes
directly after the subtrees of its children, which are the last roots so far
and are roots no longer. -/
inductive PostOrder : ContextNodes → List Nat → Prop where
  | nil : PostOrder [] []
  | push {nodes : ContextNodes} {roots : List Nat} {node : ContextNode}
      (hnodes : PostOrder nodes (roots ++ node.children)) :
      PostOrder (nodes ++ [some node]) (roots ++ [nodes.length])

theorem PostOrder.exists_values {nodes : ContextNodes} {roots : List Nat}
    (hnodes : PostOrder nodes roots) : ∃ values, contextValues values [] = (nodes, roots) := by
  induction hnodes with
  | nil => exact ⟨[], rfl⟩
  | @push nodes roots node _ ih =>
    -- The last values found so far are the children of the new node.
    obtain ⟨values, hvalues⟩ := ih
    rw [← List.take_append_drop roots.length values, contextValues_append,
      Prod.mk.injEq] at hvalues
    obtain ⟨hnodes, hindices⟩ := hvalues
    have hlength : values.length = roots.length + node.children.length := by
      have hcount := congrArg List.length hindices
      simp only [List.length_append, length_contextValues, List.length_take,
        List.length_drop] at hcount
      omega
    obtain ⟨hroots, hchildren⟩ := List.append_inj hindices (by
      rw [length_contextValues, List.length_take]
      omega)
    obtain ⟨hvalue, hnode⟩ := node.node_value (values.drop roots.length) (by
      rw [List.length_drop]
      omega)
    refine ⟨values.take roots.length ++ [node.value (values.drop roots.length)], ?_⟩
    simp [contextValues_append, contextValues, contextValue_eq, hvalue, hnodes, hroots,
      hchildren, hnode]

/-! ## Reading an encoding back -/

theorem takeContextValues_append {count : Nat} {front back : List Nat}
    {before between after : List (Option ContextValue)} {first second : List ContextValue}
    (hfront : takeContextValues count front before = .ok (first, between))
    (hback : takeContextValues count back between = .ok (second, after)) :
    takeContextValues count (front ++ back) before = .ok (first ++ second, after) := by
  induction front generalizing before first with
  | nil =>
    cases hfront
    exact hback
  | cons index rest ih =>
    simp only [takeContextValues, bind_eq_ok, pure_eq_ok] at hfront
    obtain ⟨⟨value, values⟩, hvalue, ⟨taken, left⟩, hrest, hpair⟩ := hfront
    cases hpair
    simp [takeContextValues, hvalue, ih hrest]

/-- What the segment appended for some values does to the decoder: it builds some
values from it, and once the roots are taken none of them is left. -/
structure Encodes (values : List ContextValue) (start : Nat) (segment : ContextNodes)
    (indices : List Nat) (built : List (Option ContextValue)) : Prop where
  builds : ∀ count before, before.length = start → start + segment.length ≤ count →
    segment.foldlM (buildContextValue count) before = .ok (before ++ built)
  takes : ∀ count before after, before.length = start → start + segment.length ≤ count →
    takeContextValues count indices (before ++ built ++ after) =
      .ok (values, before ++ List.replicate segment.length none ++ after)
  length : built.length = segment.length
  postOrder : ∀ nodes roots, nodes.length = start → PostOrder nodes roots →
    PostOrder (nodes ++ segment) (roots ++ indices)

namespace Encodes

theorem nil (start : Nat) : Encodes [] start [] [] [] where
  builds count before _ _ := by simp [List.foldlM_nil, pure_eq_ok]
  takes count before after _ _ := by simp [takeContextValues]
  length := rfl
  postOrder nodes roots _ hnodes := by simpa using hnodes

theorem append {front back : List ContextValue} {start : Nat} {first second : ContextNodes}
    {firstIndices secondIndices : List Nat} {firstBuilt secondBuilt : List (Option ContextValue)}
    (hfirst : Encodes front start first firstIndices firstBuilt)
    (hsecond : Encodes back (start + first.length) second secondIndices secondBuilt) :
    Encodes (front ++ back) start (first ++ second) (firstIndices ++ secondIndices)
      (firstBuilt ++ secondBuilt) where
  builds count before hbefore hcount := by
    rw [List.length_append] at hcount
    rw [List.foldlM_append, hfirst.builds count before hbefore (by omega), ok_bind,
      hsecond.builds count _ (by rw [List.length_append, hbefore, hfirst.length]) (by omega),
      List.append_assoc]
  takes count before after hbefore hcount := by
    rw [List.length_append] at hcount
    have hfront := hfirst.takes count before (secondBuilt ++ after) hbefore (by omega)
    have hback := hsecond.takes count (before ++ List.replicate first.length none) after
      (by rw [List.length_append, hbefore, List.length_replicate]) (by omega)
    rw [List.append_assoc _ secondBuilt] at hback
    have hboth := takeContextValues_append hfront hback
    rw [List.length_append, ← List.replicate_append_replicate]
    simpa only [List.append_assoc] using hboth
  length := by rw [List.length_append, List.length_append, hfirst.length, hsecond.length]
  postOrder nodes roots hnodes hroots := by
    have hfront := hfirst.postOrder nodes roots hnodes hroots
    have hback := hsecond.postOrder _ _ (by rw [List.length_append, hnodes]) hfront
    simpa only [List.append_assoc] using hback

theorem push {value : ContextValue} {start : Nat} {segment : ContextNodes}
    {indices : List Nat} {built : List (Option ContextValue)}
    (hlength : indices.length = value.children.length)
    (hchildren : Encodes value.children start segment indices built) :
    Encodes [value] start (segment ++ [some (value.node indices)]) [start + segment.length]
      (List.replicate segment.length none ++ [some value]) := by
  obtain ⟨hindices, hvalue⟩ := value.value_node indices hlength
  constructor
  · intro count before hbefore hcount
    rw [List.length_append, List.length_singleton] at hcount
    have htakes := hchildren.takes count before [] hbefore (by omega)
    rw [List.append_nil, List.append_nil] at htakes
    rw [List.foldlM_append, hchildren.builds count before hbefore (by omega), ok_bind]
    simp [buildContextValue, okOr, hindices, htakes, hvalue, pure, Except.pure]
  · intro count before after hbefore hcount
    rw [List.length_append, List.length_singleton] at hcount ⊢
    have hset : (before ++ List.replicate segment.length none).length =
        start + segment.length := by
      rw [List.length_append, hbefore, List.length_replicate]
    have hindex : before.length + segment.length < count := by omega
    simp [takeContextValues, takeContextValue, contextIndex, ← hset, hindex, List.replicate_succ']
  · simp
  · intro nodes roots hnodes hroots
    have hpush := hchildren.postOrder nodes roots hnodes hroots
    rw [← hindices] at hpush
    simpa [hnodes] using hpush.push

end Encodes

theorem contextValues_encodes_of_forall {values : List ContextValue}
    (hvalues : ∀ value ∈ values, ∀ nodes, ∃ segment built,
      (contextValue value nodes).1 = nodes ++ segment ∧
        Encodes [value] nodes.length segment [(contextValue value nodes).2] built)
    (nodes : ContextNodes) :
    ∃ segment built, (contextValues values nodes).1 = nodes ++ segment ∧
      Encodes values nodes.length segment (contextValues values nodes).2 built := by
  induction values generalizing nodes with
  | nil => exact ⟨[], [], (List.append_nil nodes).symm, .nil nodes.length⟩
  | cons value rest ih =>
    rw [List.forall_mem_cons] at hvalues
    obtain ⟨first, firstBuilt, hfirst, hvalue⟩ := hvalues.1 nodes
    obtain ⟨second, secondBuilt, hsecond, hrest⟩ := ih hvalues.2 (contextValue value nodes).1
    refine ⟨first ++ second, firstBuilt ++ secondBuilt, ?_, ?_⟩
    · rw [← List.append_assoc, ← hfirst]
      exact hsecond
    · rw [hfirst, List.length_append, ← hfirst] at hrest
      exact hvalue.append hrest

theorem contextValue_encodes (value : ContextValue) (nodes : ContextNodes) :
    ∃ segment built, (contextValue value nodes).1 = nodes ++ segment ∧
      Encodes [value] nodes.length segment [(contextValue value nodes).2] built := by
  -- The recursion is on the value: the segments of its children, closed by its node.
  have hchildren : ∀ child ∈ value.children, ∀ nodes, ∃ segment built,
      (contextValue child nodes).1 = nodes ++ segment ∧
        Encodes [child] nodes.length segment [(contextValue child nodes).2] built :=
    fun child _ nodes => contextValue_encodes child nodes
  obtain ⟨segment, built, hnodes, hencodes⟩ := contextValues_encodes_of_forall hchildren nodes
  rw [contextValue_eq, hnodes, List.length_append]
  exact ⟨_, _, List.append_assoc _ _ _, hencodes.push (length_contextValues _ _)⟩
termination_by sizeOf value
decreasing_by exact ContextValue.sizeOf_child_lt ‹_›

theorem contextValues_encodes (values : List ContextValue) :
    ∃ built, Encodes values 0 (contextValues values []).1 (contextValues values []).2 built := by
  obtain ⟨segment, built, hnodes, hencodes⟩ :=
    contextValues_encodes_of_forall (fun value _ nodes => contextValue_encodes value nodes) []
  rw [List.nil_append] at hnodes
  rw [hnodes]
  exact ⟨built, hencodes⟩

/-! ## Encoding a decoded context again -/

@[simp] theorem checked_eq_ok {α : Type} {validate : α → Except RuntimeContextError Unit}
    {value result : α} :
    checked validate value = .ok result ↔ validate value = .ok () ∧ value = result := by
  simp [checked]

theorem encodeConclusion_of_eq_ok {field : String} {value : Int} {conclusion : JobConclusion}
    (hvalue : jobConclusion value field = .ok conclusion) :
    encodeConclusion conclusion = value := by
  unfold jobConclusion at hvalue
  split at hvalue <;> cases hvalue <;> rfl

theorem encodeSensitivity_of_eq_ok {field : String} {value : Int}
    {sensitivity : OutputSensitivity}
    (hvalue : outputSensitivity value field = .ok sensitivity) :
    encodeSensitivity sensitivity = value := by
  unfold outputSensitivity at hvalue
  split at hvalue <;> cases hvalue <;> rfl

theorem map_of_mapM_eq_ok {α β : Type} {decode : α → Except DecodeError β} {encode : β → α}
    (hdecode : ∀ value result, decode value = .ok result → encode result = value)
    {values : List α} {results : List β} (hresults : values.mapM decode = .ok results) :
    results.map encode = values := by
  rw [mapM_eq_ok] at hresults
  rw [← List.forall₂_eq_eq_eq, List.forall₂_map_left_iff]
  exact hresults.flip.imp (fun _ _ hresult => hdecode _ _ hresult)

theorem encodeOutput_of_eq_ok (entry : String × Option WireNeedOutput)
    (result : String × NeedOutput) (hentry : needOutputValue entry = .ok result) :
    (result.1, some (encodeOutput result.2)) = entry := by
  simp only [needOutputValue, bind_eq_ok, okOr_eq_ok, checked_eq_ok, pure_eq_ok] at hentry
  obtain ⟨output, houtput, sensitivity, hsensitivity, _, ⟨-, rfl⟩, rfl⟩ := hentry
  rw [encodeOutput, encodeSensitivity_of_eq_ok hsensitivity, ← houtput]

theorem encodeNeed_of_eq_ok {maximum : Nat} (entry : String × Option WireNeedContext)
    (result : String × NeedContext) (hentry : needContextValue maximum entry = .ok result) :
    (result.1, some (encodeNeed result.2)) = entry := by
  simp only [needContextValue, bind_eq_ok, okOr_eq_ok, checked_eq_ok, pure_eq_ok] at hentry
  obtain ⟨need, hneed, conclusion, hconclusion, -, -, -, -, outputs, houtputs, _, ⟨-, rfl⟩,
    rfl⟩ := hentry
  rw [encodeNeed, encodeConclusion_of_eq_ok hconclusion,
    map_of_mapM_eq_ok encodeOutput_of_eq_ok houtputs, ← hneed]

theorem secretBinding_of_eq_ok (entry : String × Option SecretBinding)
    (result : String × SecretBinding) (hentry : secretBindingValue entry = .ok result) :
    (result.1, some result.2) = entry := by
  simp only [secretBindingValue, bind_eq_ok, okOr_eq_ok, checked_eq_ok] at hentry
  obtain ⟨⟨bindingId, versionId⟩, hvalue, _, ⟨-, rfl⟩, hresult⟩ := hentry
  cases versionId with
  | none =>
    rw [pure_eq_ok] at hresult
    rw [← hresult, ← hvalue]
  | some version =>
    simp only [bind_eq_ok, checked_eq_ok, pure_eq_ok] at hresult
    obtain ⟨_, ⟨-, rfl⟩, rfl⟩ := hresult
    rw [← hvalue]

theorem length_takeContextValue {count index : Nat} {values : List (Option ContextValue)}
    {result : ContextValue × List (Option ContextValue)}
    (hresult : takeContextValue count index values = .ok result) :
    result.2.length = values.length := by
  simp only [takeContextValue, bind_eq_ok, pure_eq_ok] at hresult
  obtain ⟨_, -, value, -, rfl⟩ := hresult
  exact List.length_set

def WireContext.roots (wire : WireContext) : List Nat :=
  [wire.inputsIndex, wire.varsIndex, wire.matrixIndex]

def JobRuntimeContext.values (context : JobRuntimeContext) : List ContextValue :=
  [context.inputs, context.vars, context.matrix]

/-- But for its trees, the message is what is written for the context. -/
def Describes (wire : WireContext) (context : JobRuntimeContext) : Prop :=
  wire = { wire with
    schemaVersion := context.schemaVersion
    strategy := some context.strategy
    needs := context.needs.map fun entry => (entry.1, some (encodeNeed entry.2))
    secrets := context.secrets.map fun entry => (entry.1, some entry.2) }

section Decoded

variable {maximum : Nat} {wire : WireContext} {context : JobRuntimeContext}

theorem encodeContext_eq_ok_iff (hlength : wire.nodes.length ≤ maxContextValueNodes)
    (hdescribes : Describes wire context) :
    encodeContext context = .ok wire ↔
      contextValues context.values [] = (wire.nodes, wire.roots) := by
  rw [hdescribes]
  simp only [encodeContext, contextValues, JobRuntimeContext.values, WireContext.roots,
    bind_eq_ok, rejectIf_eq_ok, pure_eq_ok]
  constructor
  · rintro ⟨_, -, hwire⟩
    rw [WireContext.mk.injEq] at hwire
    obtain ⟨-, hnodes, hinputs, hvars, hmatrix, -⟩ := hwire
    rw [hnodes, hinputs, hvars, hmatrix]
  · intro hvalues
    simp only [Prod.mk.injEq, List.cons.injEq] at hvalues
    obtain ⟨hnodes, hinputs, hvars, hmatrix, -⟩ := hvalues
    rw [hnodes, hinputs, hvars, hmatrix]
    refine ⟨(), ?_, rfl⟩
    rw [maxContextValueNodes] at hlength
    omega

theorem decodeContext_values (hcontext : decodeContext maximum wire = .ok context) :
    wire.nodes.length ≤ maxContextValueNodes ∧
      ∃ built left, buildContextTree wire.nodes = .ok built ∧
        takeContextValues built.length wire.roots built = .ok (context.values, left) := by
  simp only [decodeContext, checkCollection, bind_eq_ok, rejectIf_eq_ok, checked_eq_ok] at hcontext
  obtain ⟨_, -, _, hnodes, _, -, _, -, _, -, _, -, built, hbuilt, ⟨inputs, first⟩, hinputs,
    ⟨vars, second⟩, hvars, ⟨matrix, third⟩, hmatrix, hrest⟩ := hcontext
  have hsecond := length_takeContextValue hvars
  have hfirst := length_takeContextValue hinputs
  obtain ⟨_, -, needs, -, _, -, secrets, -, strategy, -, _, -, -, rfl⟩ := hrest
  refine ⟨by omega, built, third, hbuilt, ?_⟩
  simp only at hfirst hsecond hvars hmatrix
  rw [hsecond, hfirst] at hmatrix
  rw [hfirst] at hvars
  simp [WireContext.roots, JobRuntimeContext.values, takeContextValues, hinputs, hvars, hmatrix]

theorem decodeContext_fields (hcontext : decodeContext maximum wire = .ok context) :
    Describes wire context ∧ context.validate = .ok () := by
  simp only [decodeContext, bind_eq_ok, rejectIf_eq_ok, okOr_eq_ok, checked_eq_ok] at hcontext
  obtain ⟨_, hschema, _, -, _, -, _, -, _, -, _, -, _, -, _, -, _, -, _, -, _, -, needs, hneeds,
    _, -, secrets, hsecrets, _, hstrategy, _, ⟨-, rfl⟩, hvalid, rfl⟩ := hcontext
  refine ⟨?_, hvalid⟩
  rw [Describes, map_of_mapM_eq_ok encodeNeed_of_eq_ok hneeds,
    map_of_mapM_eq_ok secretBinding_of_eq_ok hsecrets, ← hstrategy, ← not_not.mp hschema]

theorem encoded_iff_postOrder (hcontext : decodeContext maximum wire = .ok context) :
    encodeJobRuntimeContext context = .ok wire ↔ PostOrder wire.nodes wire.roots := by
  obtain ⟨hlength, built, left, hbuilt, htaken⟩ := decodeContext_values hcontext
  obtain ⟨hdescribes, hvalid⟩ := decodeContext_fields hcontext
  rw [encodeJobRuntimeContext, hvalid, ok_bind, encodeContext_eq_ok_iff hlength hdescribes]
  constructor
  · intro hvalues
    obtain ⟨_, hencodes⟩ := contextValues_encodes context.values
    have hpost := hencodes.postOrder [] [] rfl .nil
    rw [hvalues] at hpost
    exact hpost
  · intro hpost
    -- What was built from the message is what an encoding of the same nodes builds.
    obtain ⟨values, hvalues⟩ := hpost.exists_values
    obtain ⟨rebuilt, hencodes⟩ : ∃ rebuilt, Encodes values 0 wire.nodes wire.roots rebuilt := by
      simpa only [hvalues] using contextValues_encodes values
    have hbuilds := hencodes.builds wire.nodes.length [] rfl (by omega)
    have htakes := hencodes.takes wire.nodes.length [] [] rfl (by omega)
    rw [buildContextTree, hbuilds] at hbuilt
    cases hbuilt
    rw [List.nil_append, hencodes.length] at htaken
    rw [List.nil_append, List.append_nil, htaken] at htakes
    cases htakes
    exact hvalues

/-- An accepted message has the schema, strategy, needs and secrets which are written again for
its context.  It is canonical exactly if it lists its nodes in post-order. -/
theorem reencoded_iff_postOrder (hcontext : decodeContext maximum wire = .ok context) :
    Describes wire context ∧
      (encodeJobRuntimeContext context = .ok wire ↔ PostOrder wire.nodes wire.roots) ∧
      (PostOrder wire.nodes wire.roots → ∀ limit other, decodeContext limit other = .ok context →
        PostOrder other.nodes other.roots → other = wire) := by
  refine ⟨(decodeContext_fields hcontext).1, encoded_iff_postOrder hcontext,
    fun hpost limit other hother hotherPost => ?_⟩
  have hencoded := (encoded_iff_postOrder hcontext).mpr hpost
  rw [(encoded_iff_postOrder hother).mpr hotherPost] at hencoded
  exact Except.ok.inj hencoded

end Decoded

namespace ContextSample

def strategy : StrategyContext :=
  ⟨true, 0, 1, 1⟩

def emptyBase : JobRuntimeContext :=
  ⟨1, .object [], .object [], .object [], strategy, [], []⟩

def emptyObjects (inputsIndex varsIndex matrixIndex : Nat) : WireContext :=
  { schemaVersion := 1
    nodes := List.replicate 3 (some (.object []))
    inputsIndex
    varsIndex
    matrixIndex
    strategy := some strategy
    needs := []
    secrets := [] }

def nested : JobRuntimeContext :=
  { emptyBase with
    inputs := .object [("flags", .array [.boolean true, .null]), ("name", .string "a")]
    matrix := .object [("os", .string "linux")]
    needs := [("build", ⟨.success, [("digest", ⟨"0", .secretDerived⟩)]⟩)]
    secrets := [("TOKEN", ⟨"token", some "1"⟩)] }

def nestedMessage : WireContext :=
  { schemaVersion := 1
    nodes := [some (.boolean true), some .null, some (.array [0, 1]), some (.string "a"),
      some (.object [("flags", 2), ("name", 3)]), some (.object []), some (.string "linux"),
      some (.object [("os", 6)])]
    inputsIndex := 4
    varsIndex := 5
    matrixIndex := 7
    strategy := some strategy
    needs := [("build", some ⟨1, [("digest", some ⟨"0", 2⟩)]⟩)]
    secrets := [("TOKEN", some ⟨"token", some "1"⟩)] }

end ContextSample

open ContextSample

theorem reencoded_iff_postOrder_nested :
    decodeContext 8 nestedMessage = .ok nested ∧
      encodeJobRuntimeContext nested = .ok nestedMessage ∧
      PostOrder nestedMessage.nodes nestedMessage.roots := by
  have hdecoded : decodeContext 8 nestedMessage = .ok nested := rfl
  have hencoded : encodeJobRuntimeContext nested = .ok nestedMessage := rfl
  exact ⟨hdecoded, hencoded, (reencoded_iff_postOrder hdecoded).2.1.mp hencoded⟩

/-- The roots may name the three nodes in any order. -/
theorem reversed_roots_accepted :
    decodeContext 4096 (emptyObjects 2 1 0) = .ok emptyBase ∧
      decodeContext 4096 (emptyObjects 0 1 2) = .ok emptyBase ∧
      encodeJobRuntimeContext emptyBase = .ok (emptyObjects 0 1 2) ∧
      emptyObjects 2 1 0 ≠ emptyObjects 0 1 2 :=
  ⟨rfl, rfl, rfl, by decide⟩

end AutomataCi.RuntimeContexts
