import AutomataCi.ActionScopes
import AutomataCi.CommandFiles

/-!
# Publishing the outputs of an action

The outputs of a composite action are written as a command file and decoded again.  A value of
several lines stands before its delimiter with a line feed in between, which the encoder adds
unless the value ends in one, and which the decoder drops.  What was decoded becomes the output of
the main phase of the action; the limits on the outputs of a whole job, which only refuse, are left
out.
-/

namespace AutomataCi.CommandFiles

open GuardedResult TextOperations TextSlices

structure ActionOutput where
  (name value delimiter : Text)

def maxCopyBytes : Nat :=
  16 * 1024 * 1024

def encodeOutput (output : ActionOutput) : Text :=
  if '\n' ∉ output.value ∧ '\r' ∉ output.value then output.name ++ '=' :: output.value ++ ['\n']
  else
    output.name ++ '<' :: '<' :: output.delimiter ++ '\n' :: output.value ++
      (if output.value.getLast? = some '\n' then [] else ['\n']) ++ output.delimiter ++ ['\n']

/-- `none` is `resource_exhausted`; the text only grows, so that checking its length once is the
same as after each output. -/
def encodeActionOutputs (outputs : List ActionOutput) : Option Text :=
  let encoded := outputs.flatMap encodeOutput
  if maxCopyBytes < byteLength encoded then none else some encoded

def publishActionOutputs {job : JobSteps} (limits : CommandFileLimits)
    (platform : CommandFilePlatform) (path : ActionCallPath job) (commands : JobCommandState)
    (outputs : List ActionOutput) : Option JobCommandState :=
  if outputs.isEmpty then some commands
  else do
    let encoded ← encodeActionOutputs outputs
    let decoded ← (decode .output limits platform encoded).toOption
    return commands.applyCompletedStep ⟨path, .actionMain, decoded, []⟩

structure ActionOutput.Admissible (limits : CommandFileLimits) (platform : CommandFilePlatform)
    (output : ActionOutput) : Prop where
  name : PlainName limits output.name
  returns : '\r' ∉ output.name
  last : output.name.getLast? ≠ some '<'
  nul : '\x00' ∉ output.name ∧ '\x00' ∉ output.value
  drawn : ∀ character ∈ output.delimiter, character.isAlphanum = true ∨ character = '_'
  delimiter : NameFits limits output.delimiter
  fresh : ∀ line ∈ readEnvLines platform [] (output.value ++ ['\n']), line.text ≠ output.delimiter

def ActionOutput.pair (output : ActionOutput) : Text × Text :=
  (output.name, output.value)

variable {limits : CommandFileLimits} {platform : CommandFilePlatform}

def outputBody (value : Text) : Text :=
  if value.getLast? = some '\n' then value.dropLast else value

def publishedValue (platform : CommandFilePlatform) (value : Text) : Text :=
  if '\n' ∉ value ∧ '\r' ∉ value then value else (endLine platform (outputBody value)).text

theorem endLine_text_starts (line : Text) : (endLine platform line).text <+: line := by
  unfold endLine
  split
  next => exact List.dropLast_prefix line
  next => exact List.prefix_rfl

theorem publishedValue_starts (value : Text) : publishedValue platform value <+: value := by
  unfold publishedValue
  split
  next => exact List.prefix_rfl
  next =>
    refine (endLine_text_starts _).trans ?_
    unfold outputBody
    split
    next => exact List.dropLast_prefix value
    next => exact List.prefix_rfl

theorem ne_of_prefix_dropLast {text value : Text} (hstarts : text <+: value.dropLast)
    (hvalue : value ≠ []) : text ≠ value := by
  rintro rfl
  have hlength := hstarts.length_le
  have hpos := List.length_pos_iff.mpr hvalue
  rw [List.length_dropLast] at hlength
  omega

theorem publishedValue_eq_iff (value : Text) :
    publishedValue platform value = value ↔
      value.getLast? ≠ some '\n' ∧ (platform = .windows → value.getLast? ≠ some '\r') := by
  unfold publishedValue
  split
  next hplain =>
    refine iff_of_true rfl ⟨fun hlast => ?_, fun _ hlast => ?_⟩
    · exact hplain.1 (List.mem_of_getLast? hlast)
    · exact hplain.2 (List.mem_of_getLast? hlast)
  next hlines =>
    have hvalue : value ≠ [] := by
      rintro rfl
      simp at hlines
    by_cases hfeed : value.getLast? = some '\n'
    · rw [outputBody, if_pos hfeed]
      exact iff_of_false (ne_of_prefix_dropLast (endLine_text_starts _) hvalue) fun hend =>
        hend.1 hfeed
    · rw [outputBody, if_neg hfeed, endLine]
      split
      next hreturn =>
        exact iff_of_false (ne_of_prefix_dropLast List.prefix_rfl hvalue) fun hend =>
          hend.2 hreturn.1 hreturn.2
      next hplain =>
        exact iff_of_true rfl ⟨hfeed, fun hwindows hreturn => hplain ⟨hwindows, hreturn⟩⟩

theorem encodeOutput_heredoc {output : ActionOutput}
    (hlines : ¬ ('\n' ∉ output.value ∧ '\r' ∉ output.value)) (rest : Text) :
    encodeOutput output ++ rest = (output.name ++ '<' :: '<' :: output.delimiter) ++ '\n' ::
      (outputBody output.value ++ '\n' :: (output.delimiter ++ '\n' :: rest)) := by
  rw [encodeOutput, if_neg hlines, outputBody]
  split
  next hlast =>
    nth_rw 1 [← List.dropLast_append_getLast? '\n' hlast]
    simp
  next => simp

namespace ActionOutput.Admissible

variable {output : ActionOutput} (houtput : output.Admissible limits platform)

include houtput

theorem notMem_delimiter {character : Char} (hother : character.isAlphanum = false)
    (hscore : character ≠ '_') : character ∉ output.delimiter := by
  intro hmem
  rcases houtput.drawn character hmem with halphanum | hsame
  · rw [hother] at halphanum
    contradiction
  · exact hscore hsame

theorem returns_delimiter : '\r' ∉ output.delimiter :=
  houtput.notMem_delimiter (by decide) (by decide)

theorem feed_delimiter : '\n' ∉ output.delimiter :=
  houtput.notMem_delimiter (by decide) (by decide)

variable {pairs : List (Text × Text)}

theorem written {text : Text} (hrest : Written limits platform pairs text) :
    Written limits platform ((output.name, publishedValue platform output.value) :: pairs)
      (encodeOutput output ++ text) := by
  by_cases hplain : '\n' ∉ output.value ∧ '\r' ∉ output.value
  · have htext :
        encodeOutput output ++ text = (output.name ++ '=' :: output.value) ++ '\n' :: text := by
      simp [encodeOutput, hplain]
    rw [htext, publishedValue, if_pos hplain]
    have hline : '\r' ∉ output.name ++ '=' :: output.value := by simp [houtput.returns, hplain.2]
    exact .single houtput.name hplain.1 (.of_notMem hline) hrest
  · rw [encodeOutput_heredoc hplain, publishedValue, if_neg hplain]
    have hline : '\r' ∉ output.name ++ '<' :: '<' :: output.delimiter := by
      simp [houtput.returns, houtput.returns_delimiter]
    refine .heredoc houtput.name houtput.last houtput.delimiter houtput.feed_delimiter
      (.of_notMem hline) (endedLine_endLine _) ?_ (.of_notMem houtput.returns_delimiter) hrest
    intro line hline
    apply houtput.fresh line
    rw [outputBody] at hline
    split at hline
    next hfeed =>
      rw [← List.dropLast_append_getLast? '\n' hfeed, List.append_assoc, List.singleton_append,
        readEnvLines_append]
      exact List.mem_append_left _ hline
    next => exact hline

theorem first_name {mark : Char} {name text : Text} (hname : output.name = mark :: name)
    (hpairs :
      parseNameValues .output limits platform (encodeOutput output ++ text).tail = .ok pairs) :
    [name] <+: pairs.map Prod.fst := by
  have hequals := houtput.name.equals
  have hmark := houtput.name.mark
  have hfeed := houtput.name.lineFeed
  have hreturns := houtput.returns
  have hlast := houtput.last
  rw [hname] at hequals hmark hfeed hreturns hlast
  rw [List.mem_cons, not_or] at hequals hfeed hreturns
  have hinside : ¬ ['<', '<'] <:+: name := fun hinside => hmark (List.infix_cons hinside)
  by_cases hplain : '\n' ∉ output.value ∧ '\r' ∉ output.value
  · have htext :
        (encodeOutput output ++ text).tail = (name ++ '=' :: output.value) ++ '\n' :: text := by
      simp [encodeOutput, hplain, hname]
    rw [htext] at hpairs
    have hline : '\r' ∉ name ++ '=' :: output.value := by simp [hreturns.2, hplain.2]
    have hhead : recordHead (name ++ '=' :: output.value) = some ⟨name, output.value, false⟩ :=
      recordHead_append hequals.2 hinside (fun _ => by simp) rfl
    rw [← (EndedLine.of_notMem hline).endLine_text] at hhead
    exact name_of_parseNameValues (by simp [hfeed.2, hplain.1]) hhead hpairs
  · rw [encodeOutput_heredoc hplain, hname] at hpairs
    have hline : '\r' ∉ name ++ '<' :: '<' :: output.delimiter := by
      simp [hreturns.2, houtput.returns_delimiter]
    have hhead : recordHead (name ++ '<' :: '<' :: output.delimiter) =
        some ⟨name, output.delimiter, true⟩ := by
      refine recordHead_append hequals.2 hinside (fun hend => ?_) rfl
      exact absurd (by rw [List.getLast?_cons, hend]; rfl) hlast
    rw [← (EndedLine.of_notMem hline).endLine_text] at hhead
    exact name_of_parseNameValues (by simp [hfeed.2, houtput.feed_delimiter]) hhead hpairs

theorem nul_notMem_encodeOutput : '\x00' ∉ encodeOutput output := by
  have hdelimiter : '\x00' ∉ output.delimiter := houtput.notMem_delimiter (by decide) (by decide)
  unfold encodeOutput
  split_ifs <;> simp [houtput.nul.1, houtput.nul.2, hdelimiter]

theorem head_encodeOutput (text : Text) :
    (encodeOutput output ++ text).head? = output.name.head? := by
  obtain ⟨first, rest, hname⟩ := List.exists_cons_of_ne_nil houtput.name.fits.1
  unfold encodeOutput
  split <;> simp [hname]

end ActionOutput.Admissible

section Values

variable {values commands : List (Text × Text)}

theorem replaceNameValue_fresh {replacement : Text × Text}
    (hfresh : ∀ existing ∈ values, sameIgnoringCase existing.1 replacement.1 = false) :
    replaceNameValue values replacement = values ++ [replacement] := by
  induction values with
  | nil => rfl
  | cons existing rest ih =>
    rw [List.forall_mem_cons] at hfresh
    rw [replaceNameValue, hfresh.1, ih hfresh.2]
    rfl

theorem foldl_replaceNameValue (hdistinct : (values ++ commands).Pairwise fun left right =>
      sameIgnoringCase left.1 right.1 = false) :
    commands.foldl replaceNameValue values = values ++ commands := by
  induction commands generalizing values with
  | nil => simp
  | cons command rest ih =>
    have hfresh : ∀ existing ∈ values, sameIgnoringCase existing.1 command.1 = false :=
      fun existing hmem => (List.pairwise_append.mp hdistinct).2.2 existing hmem command
        List.mem_cons_self
    rw [List.append_cons] at hdistinct ⊢
    rw [List.foldl_cons, replaceNameValue_fresh hfresh, ih hdistinct]

/-- A name keeps its place and its spelling. -/
theorem names_replaceNameValue (replacement : Text × Text) :
    values.map Prod.fst <+: (replaceNameValue values replacement).map Prod.fst := by
  induction values with
  | nil => exact List.nil_prefix
  | cons existing rest ih =>
    rw [replaceNameValue]
    split
    · exact List.prefix_rfl
    · exact List.prefix_cons_inj _ |>.mpr ih

theorem names_foldl_replaceNameValue (values : List (Text × Text)) :
    values.map Prod.fst <+: (commands.foldl replaceNameValue values).map Prod.fst := by
  induction commands generalizing values with
  | nil => exact List.prefix_rfl
  | cons command rest ih => exact (names_replaceNameValue command).trans (ih _)

theorem first_name_foldl_replaceNameValue {name : Text}
    (hname : [name] <+: commands.map Prod.fst) :
    [name] <+: (commands.foldl replaceNameValue []).map Prod.fst := by
  obtain ⟨rest, hname⟩ := hname
  obtain ⟨command, later, rfl, rfl, -⟩ := List.map_eq_cons_iff.mp hname.symm
  exact names_foldl_replaceNameValue [command]

end Values

/-- The text which the encoder writes is read back as it was. -/
structure Survives (platform : CommandFilePlatform) (outputs : List ActionOutput) : Prop where
  mark : ∀ first ∈ outputs.head?, first.name.head? ≠ some '\ufeff'
  ends : ∀ output ∈ outputs, output.value.getLast? ≠ some '\n' ∧
    (platform = .windows → output.value.getLast? ≠ some '\r')

section Outputs

variable {outputs : List ActionOutput} {text : Text}

theorem publishActionOutputs_eq_some (hne : outputs ≠ [])
    (hencode : encodeActionOutputs outputs = some text) {job : JobSteps} {path : ActionCallPath job}
    {commands next : JobCommandState} :
    publishActionOutputs limits platform path commands outputs = some next ↔
      ∃ decoded, decode .output limits platform text = .ok decoded ∧
        commands.applyCompletedStep ⟨path, .actionMain, decoded, []⟩ = next := by
  rw [publishActionOutputs, if_neg (by simpa using hne)]
  cases hdecode : decode .output limits platform text <;>
    simp [hencode, hdecode, Except.toOption]

theorem valuesOf_publish {job : JobSteps} (path : ActionCallPath job) (commands : JobCommandState)
    (decoded : List (Text × Text)) :
    valuesOf (commands.applyCompletedStep ⟨path, .actionMain, decoded, []⟩).outputs
      path.runtimeStepId = decoded.foldl replaceNameValue [] := by
  have hothers : (commands.outputs.filter fun entry => entry.1 ≠ path.runtimeStepId).find?
      (fun entry => entry.1 = path.runtimeStepId) = none := by
    simp
  simp only [JobCommandState.applyCompletedStep, JobCommandState.applyState,
    JobCommandState.applyOutput, reduceCtorEq, if_false, withValues]
  split
  next hnone => rw [valuesOf, hothers, hnone]; rfl
  next => rw [valuesOf, List.find?_append, hothers]; simp

variable
  (houtputs : ∀ output ∈ outputs, output.Admissible limits platform)

include houtputs

theorem written_outputs : Written limits platform
    (outputs.map fun output => (output.name, publishedValue platform output.value))
    (outputs.flatMap encodeOutput) := by
  induction outputs with
  | nil => exact .nil
  | cons output rest ih =>
    rw [List.forall_mem_cons] at houtputs
    exact houtputs.1.written (ih houtputs.2)

theorem decode_outputs (hfits : FileFits limits platform (outputs.map ActionOutput.pair) text)
    (htext : text = outputs.flatMap encodeOutput)
    (hmark : ∀ first ∈ outputs.head?, first.name.head? ≠ some '\ufeff') :
    decode .output limits platform text =
      .ok (outputs.map fun output => (output.name, publishedValue platform output.value)) := by
  subst htext
  rw [decode_eq_parseNameValues hfits.bytes]
  · apply (written_outputs houtputs).parseNameValues
    refine { hfits with count := by simpa using hfits.count, values := ?_ }
    rw [List.forall_mem_map]
    intro output houtput
    obtain ⟨rest, hvalue⟩ : publishedValue platform output.value <+: output.value :=
      publishedValue_starts output.value
    have hlimit := hfits.values _ (List.mem_map_of_mem houtput)
    rw [ActionOutput.pair, ← hvalue, byteLength_append] at hlimit
    exact (Nat.le_add_right _ _).trans hlimit
  · cases outputs with
    | nil => simp
    | cons first =>
      rw [List.flatMap_cons, (houtputs first List.mem_cons_self).head_encodeOutput]
      exact hmark first rfl
  · rw [List.mem_flatMap]
    rintro ⟨output, hmem, hnul⟩
    exact (houtputs output hmem).nul_notMem_encodeOutput hnul

/-- A first name which starts with the byte-order mark is not read back, whatever else is. -/
theorem names_of_decode_marked {decoded : List (Text × Text)}
    (htext : text = outputs.flatMap encodeOutput)
    (hdecode : decode .output limits platform text = .ok decoded)
    (hmark : ¬ ∀ first ∈ outputs.head?, first.name.head? ≠ some '\ufeff') :
    ∃ name, [name] <+: decoded.map Prod.fst ∧
      ¬ [name] <+: (outputs.map ActionOutput.pair).map Prod.fst := by
  simp only [not_forall, not_not] at hmark
  obtain ⟨first, hfirst, hhead⟩ := hmark
  obtain ⟨rest, rfl⟩ := List.head?_eq_some_iff.mp hfirst
  obtain ⟨name, hname⟩ := List.head?_eq_some_iff.mp hhead
  have hadmissible := houtputs first List.mem_cons_self
  rw [htext, List.flatMap_cons] at hdecode
  simp only [decode, bind_eq_ok, hadmissible.head_encodeOutput, hhead, if_true] at hdecode
  obtain ⟨_, -, _, -, hpairs⟩ := hdecode
  exact ⟨name, hadmissible.first_name hname hpairs, by simp [ActionOutput.pair, hname]⟩

/-- The outputs come back, and become those of the step, exactly if no value ends in a line feed,
or on Windows in a carriage return, and the first name does not start with the byte-order mark. -/
theorem decode_outputs_iff (hencode : encodeActionOutputs outputs = some text)
    (hfits : FileFits limits platform (outputs.map ActionOutput.pair) text) :
    (decode .output limits platform text = .ok (outputs.map ActionOutput.pair) ↔
      Survives platform outputs) ∧
    (outputs ≠ [] → (outputs.Pairwise fun left right =>
        sameIgnoringCase left.name right.name = false) →
      ∀ (job : JobSteps) (path : ActionCallPath job) (commands : JobCommandState),
        (∃ next, publishActionOutputs limits platform path commands outputs = some next ∧
          valuesOf next.outputs path.runtimeStepId = outputs.map ActionOutput.pair) ↔
        Survives platform outputs) := by
  have htext : text = outputs.flatMap encodeOutput := by
    simp only [encodeActionOutputs] at hencode
    split at hencode
    next => cases hencode
    next => exact (Option.some.inj hencode).symm
  by_cases hmark : ∀ first ∈ outputs.head?, first.name.head? ≠ some '\ufeff'
  · have hdecode := decode_outputs houtputs hfits htext hmark
    have hsame : (outputs.map fun output => (output.name, publishedValue platform output.value)) =
        outputs.map ActionOutput.pair ↔ Survives platform outputs := by
      simp only [List.map_inj_left, ActionOutput.pair, Prod.mk.injEq, true_and,
        publishedValue_eq_iff]
      exact ⟨fun hends => ⟨hmark, hends⟩, Survives.ends⟩
    refine ⟨by rw [hdecode, Except.ok.injEq, hsame], fun hne hdistinct job path commands => ?_⟩
    simp only [publishActionOutputs_eq_some hne hencode, hdecode, Except.ok.injEq,
      exists_eq_left', valuesOf_publish]
    rw [foldl_replaceNameValue (List.pairwise_map.mpr hdistinct), List.nil_append, hsame]
  · have hunmarked : ¬ Survives platform outputs := fun hgood => hmark hgood.mark
    refine ⟨iff_of_false (fun hdecode => ?_) hunmarked,
      fun hne _ job path commands => iff_of_false ?_ hunmarked⟩
    · obtain ⟨name, hname, hother⟩ := names_of_decode_marked houtputs htext hdecode hmark
      exact hother hname
    · rintro ⟨next, hpublish, hvalues⟩
      obtain ⟨decoded, hdecode, rfl⟩ := (publishActionOutputs_eq_some hne hencode).mp hpublish
      obtain ⟨name, hname, hother⟩ := names_of_decode_marked houtputs htext hdecode hmark
      rw [← hvalues, valuesOf_publish] at hother
      exact hother (first_name_foldl_replaceNameValue hname)

end Outputs

def trailing : ActionOutput :=
  ⟨"log".toList, "a\n".toList, "automata_output_0".toList⟩

def trailingText : Text :=
  "log<<automata_output_0\na\nautomata_output_0\n".toList

theorem trailing_admissible : ∀ output ∈ [trailing], output.Admissible sampleLimits .unix := by
  rw [List.forall_mem_singleton]
  exact {
    name := ⟨by decide +kernel, by decide +kernel, by decide +kernel, by decide +kernel⟩
    returns := by decide +kernel
    last := by decide +kernel
    nul := by decide +kernel
    drawn := forall_mem_of_all (by decide +kernel)
    delimiter := by decide +kernel
    fresh := forall_mem_of_all (by decide +kernel) }

theorem trailing_fits :
    FileFits sampleLimits .unix ([trailing].map ActionOutput.pair) trailingText where
  bytes := by decide +kernel
  lines := forall_mem_of_all (by decide +kernel)
  count := by decide
  values := List.forall_mem_singleton.mpr (by decide +kernel)

theorem trailing_line_feed_lost : encodeActionOutputs [trailing] = some trailingText ∧
    decode .output sampleLimits .unix trailingText = .ok [("log".toList, "a".toList)] ∧
    trailing.pair = ("log".toList, "a\n".toList) := by
  decide +kernel

theorem trailing_not_published :
    decode .output sampleLimits .unix trailingText ≠ .ok [trailing.pair] ∧
      ¬∃ next, publishActionOutputs sampleLimits .unix (ScopeSample.step 0) ⟨[], []⟩ [trailing] =
          some next ∧
        valuesOf next.outputs (ScopeSample.step 0).runtimeStepId = [trailing.pair] := by
  have hencode : encodeActionOutputs [trailing] = some trailingText := by decide +kernel
  obtain ⟨hdecode, hpublish⟩ := decode_outputs_iff trailing_admissible hencode trailing_fits
  have hlost : ¬ Survives .unix [trailing] := fun hsurvives =>
    (hsurvives.ends trailing List.mem_cons_self).1 rfl
  exact ⟨mt hdecode.mp hlost, mt (hpublish (by simp) (List.pairwise_singleton _ _) _ _ _).mp hlost⟩

end AutomataCi.CommandFiles
